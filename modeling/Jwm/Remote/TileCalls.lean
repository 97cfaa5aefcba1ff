/-
The tile encoder between calls: plans, selections, encodes, commits and discards in any order keep
the tile size in range, the qualities in step with the reference, and the grid that of the capture
being sent.
-/
import Jwm.Remote.TileStream

namespace Jwm.Remote.TileEncoder

/-! ## Calls -/

/-- A call of one of the encoder's methods. The capture last planned is the one that is encoded and
committed. -/
inductive EncoderCall where
  | plan (frame : CapturedFrame) (request : TileEncodeRequest)
  | selectRefinement (refinement : Option (Nat × Nat))
  | encode (sequence quality : Nat)
  | commit
  | discard

/-- An encoder and the capture last planned. -/
structure EncoderHost where
  encoder : TileEncoder
  capture : Option CapturedFrame

def EncoderHost.call (coder : AtlasCoder) (s : EncoderHost) : EncoderCall → EncoderHost
  | .plan frame request => ⟨(s.encoder.plan frame request).1, some frame⟩
  | .selectRefinement refinement => ⟨(s.encoder.selectRefinement refinement).1, s.capture⟩
  | .encode sequence quality =>
    match s.capture with
    | some frame => ⟨(s.encoder.encodeInto coder sequence frame quality).1, s.capture⟩
    | none => s
  | .commit =>
    match s.capture with
    | some frame => ⟨s.encoder.commit frame, s.capture⟩
    | none => s
  | .discard => ⟨s.encoder.discard, s.capture⟩

/-- The encoder's state after any calls, from any settings. -/
def EncoderHost.reached (coder : AtlasCoder) (tileLog2 tolerance : Nat) (calls : List EncoderCall) : TileEncoder :=
  (calls.foldl (EncoderHost.call coder) ⟨withSettings tileLog2 tolerance, none⟩).encoder

/-- Something of the capture is still to be selected, encoded or committed. -/
def Busy (e : TileEncoder) : Prop := e.pending = true ∨ e.planned.isSome = true ∨ e.detected.isSome = true

def GridOf (e : TileEncoder) (frame : CapturedFrame) : Prop :=
  e.grid = (divCeil frame.image.width e.tile, divCeil frame.image.height e.tile)

/-- What holds between any two calls. -/
structure EncoderHost.Sound (s : EncoderHost) : Prop where
  log2 : minTileLog2 ≤ s.encoder.tileLog2 ∧ s.encoder.tileLog2 ≤ maxTileLog2
  qualities : QualitiesFit s.encoder
  capture : Busy s.encoder → ∃ frame, s.capture = some frame ∧ GridOf s.encoder frame

/-- A call that changes neither the model nor the grid, and starts nothing. -/
structure Idles (e e' : TileEncoder) : Prop where
  model : e'.model = e.model
  grid : e'.grid = e.grid
  busy : Busy e' → Busy e

theorem log2_of_model {e e' : TileEncoder} (h : e'.model = e.model) : e'.tileLog2 = e.tileLog2 :=
  congrArg HostModel.tileLog2 h

theorem QualitiesFit.of_model {e e' : TileEncoder} (hq : QualitiesFit e) (h : e'.model = e.model) : QualitiesFit e' := by
  intro reference hr
  have hqual : e'.qualities = e.qualities := congrArg HostModel.qualities h
  have href : e'.reference = e.reference := congrArg HostModel.reference h
  rw [hqual, tile_of_model h]
  exact hq reference (by rw [← href]; exact hr)

theorem Idles.sound {e e' : TileEncoder} {capture : Option CapturedFrame} (h : Idles e e')
    (hs : EncoderHost.Sound ⟨e, capture⟩) : EncoderHost.Sound ⟨e', capture⟩ := by
  refine ⟨?_, hs.qualities.of_model h.model, fun hb => ?_⟩
  · rw [log2_of_model h.model]
    exact hs.log2
  · obtain ⟨frame, hf, hg⟩ := hs.capture (h.busy hb)
    refine ⟨frame, hf, ?_⟩
    show e'.grid = _
    rw [h.grid, tile_of_model h.model]
    exact hg

theorem selectRefinement_idles (e : TileEncoder) (refinement : Option (Nat × Nat)) :
    Idles e (e.selectRefinement refinement).1 := by
  unfold selectRefinement
  split
  · exact ⟨rfl, rfl, fun h => h⟩
  rename_i detected hd
  have hbusy : Busy e := .inr (.inr (by rw [hd]; rfl))
  simp only
  split
  · exact ⟨rfl, rfl, fun _ => hbusy⟩
  split
  · exact ⟨rfl, rfl, fun _ => hbusy⟩
  split
  · exact ⟨rfl, rfl, fun _ => hbusy⟩
  · exact ⟨rfl, rfl, fun _ => hbusy⟩

theorem discard_idles (e : TileEncoder) : Idles e e.discard := by
  refine ⟨rfl, rfl, fun h => ?_⟩
  rcases h with h | h | h <;> cases h

section Encode

variable (coder : AtlasCoder) (e : TileEncoder) (sequence : Nat) (frame : CapturedFrame) (quality : Nat)

theorem encodeInner_idles : Idles e (e.encodeInner coder sequence frame quality).1 := by
  refine ⟨encodeInner_model, ?_, ?_⟩
  · unfold encodeInner
    split
    · rfl
    simp only
    split
    · rfl
    split
    · rfl
    split
    · rfl
    split
    · rfl
    split
    · rfl
    · rfl
  · cases hp : e.planned with
    | some planned => exact fun _ => .inr (.inl (by rw [hp]; rfl))
    | none =>
      unfold encodeInner
      rw [hp]
      exact fun h => h

theorem encodeInto_idles : Idles e (e.encodeInto coder sequence frame quality).1 := by
  have hinner := encodeInner_idles coder { e with detected := none } sequence frame quality
  have hbusy : Busy { e with detected := none } → Busy e := by
    rintro (h | h | h)
    · exact .inl h
    · exact .inr (.inl h)
    · cases h
  unfold encodeInto
  split
  · rename_i e' payload heq
    rw [heq] at hinner
    exact ⟨hinner.model, hinner.grid, fun h => hbusy (hinner.busy h)⟩
  · rename_i e' error heq
    rw [heq] at hinner
    refine ⟨hinner.model, hinner.grid, fun h => hbusy (hinner.busy ?_)⟩
    rcases h with h | h | h
    · cases h
    · cases h
    · exact .inr (.inr h)

end Encode

theorem plan_sound {e : TileEncoder} {capture : Option CapturedFrame} (hs : EncoderHost.Sound ⟨e, capture⟩)
    (frame : CapturedFrame) (request : TileEncodeRequest) :
    EncoderHost.Sound ⟨(e.plan frame request).1, some frame⟩ := by
  unfold plan
  rcases detect_spec e frame request with ⟨error, herr, hm, hd, hp⟩ | ⟨hok, hdet⟩
  · have hpending : (e.detect frame request).1.pending = false := by
      unfold detect at herr ⊢
      split
      · rfl
      · rfl
    generalize e.detect frame request = r at *
    obtain ⟨e', res⟩ := r
    simp only at herr hm hd hp hpending
    rw [herr]
    refine ⟨?_, hs.qualities.of_model hm, fun hb => ?_⟩
    · rw [log2_of_model hm]
      exact hs.log2
    · rcases hb with h | h | h
      · rw [hpending] at h
        cases h
      · rw [hp] at h
        cases h
      · rw [hd] at h
        cases h
  · generalize e.detect frame request = r at *
    obtain ⟨e', res⟩ := r
    simp only at hok hdet
    rw [hok]
    refine (selectRefinement_idles e' none).sound ⟨?_, hs.qualities.of_model hdet.model, fun _ => ⟨frame, rfl, ?_⟩⟩
    · rw [log2_of_model hdet.model]
      exact hs.log2
    · show e'.grid = _
      rw [hdet.grid, tile_of_model hdet.model]

theorem commit_sound {e : TileEncoder} {frame : CapturedFrame} (hs : EncoderHost.Sound ⟨e, some frame⟩) :
    EncoderHost.Sound ⟨e.commit frame, some frame⟩ := by
  cases hp : e.pending with
  | false =>
    have hsame : e.commit frame = e := by
      unfold commit
      rw [hp]
      rfl
    rw [hsame]
    exact hs
  | true =>
    obtain ⟨frame', hf, hgrid⟩ := hs.capture (.inl hp)
    obtain rfl := Option.some.inj hf
    obtain ⟨-, -, hlog2, -, hlen⟩ := commit_fields hp frame
    have hkept : (e.commit frame).grid = e.grid := by
      unfold commit
      rw [hp]
      rfl
    have htile : (e.commit frame).tile = e.tile := congrArg (fun k => 1 <<< k) hlog2
    have hdim : ∀ reference, (e.commit frame).reference = some reference → reference.dimensions = frame.image.dimensions := by
      intro reference hr
      unfold commit at hr
      rw [hp] at hr
      obtain rfl := Option.some.inj hr
      split
      · split
        · assumption
        · rfl
      · rfl
    refine ⟨by rw [hlog2]; exact hs.log2, fun reference hr => ?_, fun _ => ⟨frame, rfl, ?_⟩⟩
    · obtain ⟨hw, hh⟩ := Prod.mk.inj (hdim reference hr)
      rw [hlen, htile, hgrid, hw, hh]
    · show _ = _
      rw [hkept, htile, hgrid]

theorem EncoderHost.call_sound (coder : AtlasCoder) {s : EncoderHost} (hs : s.Sound) (c : EncoderCall) :
    (s.call coder c).Sound := by
  obtain ⟨e, capture⟩ := s
  cases c with
  | plan frame request => exact plan_sound hs frame request
  | selectRefinement refinement => exact (selectRefinement_idles e refinement).sound hs
  | discard => exact (discard_idles e).sound hs
  | encode sequence quality =>
    cases capture with
    | none => exact hs
    | some frame => exact (encodeInto_idles coder e sequence frame quality).sound hs
  | commit =>
    cases capture with
    | none => exact hs
    | some frame => exact commit_sound hs

theorem EncoderHost.calls_sound (coder : AtlasCoder) : ∀ (calls : List EncoderCall) {s : EncoderHost}, s.Sound →
    (calls.foldl (EncoderHost.call coder) s).Sound
  | [], _, hs => hs
  | c :: calls, _, hs => EncoderHost.calls_sound coder calls (EncoderHost.call_sound coder hs c)

theorem EncoderHost.new_sound (tileLog2 tolerance : Nat) : EncoderHost.Sound ⟨withSettings tileLog2 tolerance, none⟩ := by
  refine ⟨?_, fun reference hr => (nomatch hr), fun hb => ?_⟩
  · show 3 ≤ max 3 (min tileLog2 7) ∧ max 3 (min tileLog2 7) ≤ 7
    omega
  · rcases hb with h | h | h <;> cases h

end Jwm.Remote.TileEncoder
