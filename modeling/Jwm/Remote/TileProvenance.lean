/-
Where the pixels on the viewer's screen come from: the atlas cells of accepted frames, as long as a keyframe marks every tile
of its grid, and one that replaces the canvas can be drawn.
-/
import Jwm.Data.Run
import Jwm.Remote.TileDraw
import Jwm.Remote.TileSnapshot
import Jwm.Remote.TileStream

namespace Jwm.Remote

open List

/-! ## The snapshot mirrors the canvas -/

/-- `RecyclableDecodedFrame::image` of a frame fresh from the decoder. -/
def DecodedFrame.image (frame : DecodedFrame) : RgbImage := frame.snapshot.materialize

namespace TileDecoder

/-- The snapshot shows the canvas, and its tiles are older than the next one to be rebuilt. -/
structure Mirrors (d : TileDecoder) : Prop where
  shows : ∀ p, d.snapshot = some p → ∃ canvas, d.canvas = some canvas ∧ p.Shows canvas
  before : ∀ p, d.snapshot = some p → p.Before d.version

/-- A keyframe that the checks admit finds a canvas of its size, or its atlas can be drawn. -/
def KeyframeDraws (coder : AtlasCoder) (d : TileDecoder) (payload : List Byte) : Prop :=
  ∀ header, d.accept payload = .ok header → header.keyframe = true →
    d.canvas.map RgbImage.dimensions = some (header.encodedWidth, header.encodedHeight) ∨
      ∃ atlas, header.atlasOf coder payload = .ok atlas

section Mirrors

variable {coder : AtlasCoder} {d : TileDecoder} {payload : List Byte} {header : TileHeader} {t : Transmission}
  {base canvas : RgbImage} {p : TileSnapshot}

theorem mirrors_of_new (h : d.snapshot = none) : d.Mirrors := by
  refine ⟨fun p hp => ?_, fun p hp => ?_⟩
  · rw [h] at hp
    cases hp
  · rw [h] at hp
    cases hp

theorem adopt_snapshot (h : (d.adopt header).snapshot = some p) : d.snapshot = some p := by
  unfold adopt at h
  dsimp only at h
  split at h
  · cases h
  · exact h

theorem failed_canvas {error : String} (hdraws : d.KeyframeDraws coder payload) (ha : d.accept payload = .ok header)
    (hatlas : header.atlasOf coder payload = .error error) : (d.adopt header).canvas = d.canvas := by
  cases hk : header.keyframe with
  | false => rw [adopt_delta ha hk]
  | true =>
    rcases hdraws header ha hk with hdim | ⟨atlas, hok⟩
    · obtain ⟨base, hbase, -, hold | ⟨hne, -⟩⟩ := adopt_keyframe_canvas (d := d) hk
      · rw [hbase, hold]
      · exact absurd hdim hne
    · rw [hatlas] at hok
      cases hok

/-- The canvas that a frame paints over is the old one, unless a keyframe changed the size. -/
theorem adopt_base {old : RgbImage} (ha : d.accept payload = .ok header) (hbase : (d.adopt header).canvas = some base)
    (hold : d.canvas = some old) (hdim : old.dimensions = (header.encodedWidth, header.encodedHeight)) : base = old := by
  cases hk : header.keyframe with
  | false =>
    rw [adopt_delta ha hk, hold] at hbase
    exact (Option.some.inj hbase).symm
  | true =>
    obtain ⟨base', hbase', -, hsame | ⟨hne, -⟩⟩ := adopt_keyframe_canvas (d := d) hk
    · rw [hbase'] at hbase
      rw [hsame] at hold
      exact (Option.some.inj hbase).symm.trans (Option.some.inj hold)
    · rw [hold] at hne
      exact absurd (congrArg some hdim) hne

theorem present_shows (atlas : List Byte) (hm : d.Mirrors) (ha : d.accept payload = .ok t.header)
    (hbitmap : t.bitmap = bitmapOf t.header payload)
    (hbase : (d.adopt t.header).canvas = some base) (hpaint : Painted t base canvas) :
    (({ d.adopt t.header with atlas := atlas, canvas := some canvas } : TileDecoder).present t.header payload canvas).2.snapshot.Shows
      canvas := by
  obtain ⟨hw, hh⟩ := Prod.mk.inj hpaint.dimensions
  refine TileSnapshot.update_shows (by rw [hw]; exact hpaint.width_pos) t.header.tile_pos fun p hp => ?_
  obtain ⟨old, hold, hshows⟩ := hm.shows p (adopt_snapshot hp)
  refine ⟨old, hshows, fun hdim i hi hnot => ?_⟩
  obtain rfl := adopt_base ha hbase hold (hdim.trans hpaint.dimensions)
  rw [hw, hh] at hi
  rw [hw, ← hbitmap] at hnot
  rw [hpaint.raw i hi, if_neg (by rw [show t.marks i = false from hnot]; exact Bool.false_ne_true)]

theorem mirrors_step (hf : coder.Fills) (hm : d.Mirrors) (hdraws : d.KeyframeDraws coder payload) :
    (d.decodeInto coder payload).1.Mirrors := by
  have hcases := decodeInto_cases hf d payload
  generalize d.decodeInto coder payload = result at hcases ⊢
  cases hcases with
  | refused => exact hm
  | failed header atlas _ _ ha hatlas =>
    have hcanvas := failed_canvas hdraws ha hatlas
    refine ⟨fun p hp => ?_, fun p hp => hm.before p (adopt_snapshot hp)⟩
    rw [show ({ d.adopt header with atlas := atlas } : TileDecoder).canvas = d.canvas from hcanvas]
    exact hm.shows p (adopt_snapshot hp)
  | drawn t atlas base canvas ha _ hbitmap _ hbase hpaint =>
    have hshows := present_shows atlas hm ha hbitmap hbase hpaint
    refine ⟨fun p hp => ?_, fun p hp => ?_⟩
    · obtain rfl := Option.some.inj hp
      exact ⟨canvas, rfl, hshows⟩
    · obtain rfl := Option.some.inj hp
      exact TileSnapshot.update_before fun p hp => hm.before p (adopt_snapshot hp)

end Mirrors

end TileDecoder

open TileDecoder

/-! ## The history of transmissions -/

/-- The newest transmission that marks the tile of byte `i` and what it carries for it, looking back
to the latest keyframe. The transmissions come newest first. -/
def transmitted : List Transmission → Nat → Option Byte
  | [], _ => none
  | t :: older, i => if t.marks i then t.cell i else if t.header.keyframe then none else transmitted older i

/-- The transmissions of the accepted payloads, newest first. -/
def acceptedTransmissions (coder : AtlasCoder) (calls : List (List Byte × Except String DecodedFrame)) : List Transmission :=
  (calls.filterMap fun call =>
    match call.2 with
    | .ok _ => Transmission.read coder call.1
    | .error _ => none).reverse

/-- The transmissions accepted while a decoder is offered payloads. -/
def TileDecoder.history (coder : AtlasCoder) (d : TileDecoder) (payloads : List (List Byte)) : List Transmission :=
  acceptedTransmissions coder (trace (decodeInto coder) d payloads)

/-- The keyframes are sound: one that is drawn marks every tile of its grid, and one that replaces the
canvas is drawn. -/
structure TileDecoder.KeyframesSound (coder : AtlasCoder) (d : TileDecoder) (payload : List Byte) : Prop where
  marks : ∀ header atlas, d.accept payload = .ok header → header.keyframe = true → header.atlasOf coder payload = .ok atlas →
    ∀ index, index < header.totalTiles → bitSet (bitmapOf header payload) index = true
  draws : d.KeyframeDraws coder payload

section History

variable {coder : AtlasCoder} {d : TileDecoder} {payload : List Byte} {calls : List (List Byte × Except String DecodedFrame)}

theorem accepted_error (payload : List Byte) (error : String) :
    acceptedTransmissions coder (calls ++ [(payload, .error error)]) = acceptedTransmissions coder calls := by
  unfold acceptedTransmissions
  rw [filterMap_append]
  exact congrArg reverse (append_nil _)

theorem accepted_ok {frame : DecodedFrame} {t : Transmission} (h : Transmission.read coder payload = some t) :
    acceptedTransmissions coder (calls ++ [(payload, .ok frame)]) = t :: acceptedTransmissions coder calls := by
  unfold acceptedTransmissions
  rw [filterMap_append, reverse_append]
  simp only [filterMap_cons, h, filterMap_nil]
  rfl

/-- The canvas holds what the history transmitted, and the snapshot shows the canvas. -/
structure Provenance (coder : AtlasCoder) (calls : List (List Byte × Except String DecodedFrame)) (d : TileDecoder) : Prop where
  mirrors : d.Mirrors
  canvas : ∀ canvas, d.canvas = some canvas → ∀ i, i < canvas.width * canvas.height * 3 →
    canvas.raw[i]? = transmitted (acceptedTransmissions coder calls) i

theorem painted_transmitted {t : Transmission} {base canvas : RgbImage} (hp : Provenance coder calls d)
    (hs : d.KeyframesSound coder payload) (ha : d.accept payload = .ok t.header)
    (hbitmap : t.bitmap = bitmapOf t.header payload)
    (hatlas : t.header.keyframe = true → ∃ atlas, t.header.atlasOf coder payload = .ok atlas)
    (hbase : (d.adopt t.header).canvas = some base) (hpaint : Painted t base canvas) {i : Nat}
    (hi : i < canvas.width * canvas.height * 3) :
    canvas.raw[i]? = transmitted (t :: acceptedTransmissions coder calls) i := by
  obtain ⟨hw, hh⟩ := Prod.mk.inj hpaint.dimensions
  have hi' : i < t.header.encodedWidth * t.header.encodedHeight * 3 := by rw [← hw, ← hh]; exact hi
  rw [hpaint.raw i hi', transmitted]
  by_cases hm : t.marks i = true
  · rw [if_pos hm, if_pos hm]
  · rw [if_neg hm, if_neg hm]
    cases hk : t.header.keyframe with
    | true =>
      -- a keyframe marks the tile of every byte
      obtain ⟨atlas, hatlas⟩ := hatlas hk
      obtain ⟨hparse, -⟩ := accept_spec ha
      obtain ⟨hpos, -, htotal⟩ := parse_spec hparse
      refine absurd ?_ hm
      show bitSet t.bitmap _ = true
      rw [hbitmap]
      refine hs.marks t.header atlas ha hk hatlas _ ?_
      rw [htotal]
      exact tileAt_lt hpos t.header.tile_pos hi'
    | false =>
      rw [adopt_delta ha hk] at hbase
      rw [if_neg Bool.false_ne_true]
      obtain ⟨hbw, hbh⟩ := Prod.mk.inj hpaint.base_dimensions
      exact hp.canvas base hbase i (by rw [hbw, hbh]; exact hi')

theorem provenance_step (hf : coder.Fills) (hp : Provenance coder calls d) (hs : d.KeyframesSound coder payload) :
    Provenance coder (calls ++ [(payload, (d.decodeInto coder payload).2)]) (d.decodeInto coder payload).1 := by
  refine ⟨TileDecoder.mirrors_step hf hp.mirrors hs.draws, ?_⟩
  have hcases := decodeInto_cases hf d payload
  generalize d.decodeInto coder payload = result at hcases ⊢
  cases hcases with
  | refused error =>
    rw [accepted_error]
    exact hp.canvas
  | failed header atlas error _ ha hatlas =>
    have hcanvas := failed_canvas hs.draws ha hatlas
    intro canvas hc
    rw [accepted_error]
    exact hp.canvas canvas (hcanvas.symm.trans hc)
  | drawn t atlas base canvas ha hread hbitmap hatlas hbase hpaint =>
    intro canvas' hc i hi
    obtain rfl := Option.some.inj hc
    rw [accepted_ok hread]
    exact painted_transmitted hp hs ha hbitmap hatlas hbase hpaint hi

theorem image_of_ok {frame : DecodedFrame} (hf : coder.Fills) (hm : d.Mirrors)
    (h : (d.decodeInto coder payload).2 = .ok frame) : (d.decodeInto coder payload).1.canvas = some frame.image := by
  have hcases := decodeInto_cases hf d payload
  generalize d.decodeInto coder payload = result at *
  cases hcases with
  | refused | failed => cases h
  | drawn t atlas base canvas ha hread hbitmap hatlas hbase hpaint =>
    obtain rfl := Except.ok.inj h
    unfold DecodedFrame.image
    rw [TileSnapshot.materialize_eq (present_shows atlas hm ha hbitmap hbase hpaint)]
    rfl

/-! ## Whole runs -/

theorem provenance_run (hf : coder.Fills) (h : d.canvas = none ∧ d.snapshot = none) {payloads : List (List Byte)}
    (hrun : Along (TileDecoder.KeyframesSound coder) (decodeInto coder) d payloads) :
    Provenance coder (trace (decodeInto coder) d payloads) (after (decodeInto coder) d payloads) := by
  refine trace_invariant_along (fun _ _ _ hs hp => provenance_step hf hp hs) ⟨mirrors_of_new h.2, ?_⟩ hrun
  intro canvas hc
  rw [h.1] at hc
  cases hc

/-- Every pixel a viewer shows was transmitted. Whatever payloads a new decoder is offered, with sound keyframes, each byte
of a frame it returns comes from the atlas cell of the newest accepted frame that marks the byte's tile, no further back than
the latest accepted keyframe. -/
theorem shown_pixels_transmitted (hf : coder.Fills) {limits : FrameLimits} (hd : TileDecoder.withFrameLimits limits = .ok d)
    {payloads : List (List Byte)} {frame : DecodedFrame}
    (hrun : Along (TileDecoder.KeyframesSound coder) (TileDecoder.decodeInto coder) d (payloads ++ [payload]))
    (hframe : ((after (TileDecoder.decodeInto coder) d payloads).decodeInto coder payload).2 = .ok frame) :
    ∀ i, i < frame.image.width * frame.image.height * 3 →
      ∃ b, frame.image.raw[i]? = some b ∧ transmitted (d.history coder (payloads ++ [payload])) i = some b := by
  obtain ⟨-, hd⟩ := unit_bind_eq_ok.1 hd
  obtain rfl := pure_eq_ok.1 hd
  have hbefore := provenance_run hf ⟨rfl, rfl⟩ (along_append.1 hrun).1
  have hafter := provenance_run hf ⟨rfl, rfl⟩ hrun
  rw [after_append] at hafter
  have himage := image_of_ok hf hbefore.mirrors hframe
  intro i hi
  have hraw := hafter.canvas frame.image himage i hi
  have hin : i < frame.image.raw.length := by rw [frame.image.raw_length]; exact hi
  exact ⟨_, getElem?_eq_getElem hin, by rw [TileDecoder.history, ← hraw, getElem?_eq_getElem hin]⟩

end History

/-! ## One pixel -/

/-- The raw coder, which reads images of the stored size only. -/
def storedCoder : AtlasCoder :=
  { rawCoder with
    readImage := fun body =>
      if body.length - 4 = fromBeBytes (slice body 0 2) * fromBeBytes (slice body 2 4) * 3 then .ok (body.drop 4)
      else .error "unexpected end of file" }

theorem storedCoder_fills : storedCoder.Fills := by
  refine ⟨fun body info pixels hnew hread => ?_⟩
  simp only [storedCoder, rawCoder] at hnew hread
  split at hnew
  · cases hnew
  · split at hread
    · rename_i hlen
      obtain rfl := Except.ok.inj hnew
      obtain rfl := Except.ok.inj hread
      rw [length_drop]
      exact hlen
    · cases hread

def pixelPayload (sequence epoch : Nat) (flags : Byte) (dirty : Nat) (bitmap : Byte) (body : List Byte) : List Byte :=
  toBeBytes 8 sequence ++ toBeBytes 2 1 ++ toBeBytes 2 1 ++ toBeBytes 2 1 ++ toBeBytes 2 1 ++ [3, flags] ++
    toBeBytes 2 1 ++ toBeBytes 4 dirty ++ toBeBytes 8 epoch ++ [bitmap] ++ body

def greyCell (value : Byte) : List Byte := toBeBytes 2 8 ++ toBeBytes 2 8 ++ List.replicate 192 value

theorem keyframesSound_of_marks {coder : AtlasCoder} {d : TileDecoder} {payload : List Byte}
    (h : (d.accept payload).toOption.all (fun header => !header.keyframe ||
      (List.range header.totalTiles).all (bitSet (bitmapOf header payload)) && (header.atlasOf coder payload).toOption.isSome) = true) :
    d.KeyframesSound coder payload := by
  have hboth : ∀ header, d.accept payload = .ok header → header.keyframe = true →
      (range header.totalTiles).all (bitSet (bitmapOf header payload)) = true ∧
        (header.atlasOf coder payload).toOption.isSome = true := by
    intro header ha hkey
    rw [ha] at h
    have h : (!header.keyframe || _) = true := h
    rw [hkey, Bool.not_true, Bool.false_or] at h
    exact Bool.and_eq_true_iff.1 h
  refine ⟨fun header _ ha hkey _ index hi => all_eq_true.1 (hboth header ha hkey).1 index (mem_range.2 hi), fun header ha hkey => ?_⟩
  have hatlas := (hboth header ha hkey).2
  cases hok : header.atlasOf coder payload with
  | ok atlas => exact .inr ⟨atlas, rfl⟩
  | error error =>
    rw [hok] at hatlas
    cases hatlas

/-- A frame of nine pixels in a row: two tiles, of which it marks some. -/
def rowPayload (sequence : Nat) (flags : Byte) (dirty : Nat) (bitmap : Byte) (body : List Byte) : List Byte :=
  toBeBytes 8 sequence ++ [0, 9, 0, 1, 0, 9, 0, 1, 3, flags] ++ toBeBytes 2 dirty ++ toBeBytes 4 dirty ++ toBeBytes 8 1 ++ [bitmap] ++ body

def rowKeyframe : List Byte := rowPayload 1 1 2 3 (toBeBytes 2 16 ++ toBeBytes 2 8 ++ List.replicate 384 9)

def rowDelta : List Byte := rowPayload 2 0 1 2 (greyCell 20)

/-- The delta redraws the second tile. -/
theorem shown_pixels_transmitted_row :
    ∃ frame, ((after (decodeInto storedCoder) .default [rowKeyframe]).decodeInto storedCoder rowDelta).2 = .ok frame ∧
      frame.image.raw = List.replicate 24 9 ++ [20, 20, 20] ∧
      ∀ i, i < frame.image.width * frame.image.height * 3 → ∃ b, frame.image.raw[i]? = some b ∧
        transmitted (TileDecoder.default.history storedCoder ([rowKeyframe] ++ [rowDelta])) i = some b := by
  have hraw : ((after (decodeInto storedCoder) .default [rowKeyframe]).decodeInto storedCoder rowDelta).2.toOption.map (·.image.raw) =
      some (List.replicate 24 9 ++ [20, 20, 20]) := by decide +kernel
  have hd : TileDecoder.withFrameLimits .default = .ok .default := rfl
  cases hframe : ((after (decodeInto storedCoder) .default [rowKeyframe]).decodeInto storedCoder rowDelta).2 with
  | error error =>
    rw [hframe] at hraw
    cases hraw
  | ok frame =>
    rw [hframe] at hraw
    have hrun : Along (TileDecoder.KeyframesSound storedCoder) (decodeInto storedCoder) .default ([rowKeyframe] ++ [rowDelta]) :=
      ⟨keyframesSound_of_marks (by decide +kernel), keyframesSound_of_marks (by decide +kernel), trivial⟩
    exact ⟨frame, rfl, Option.some.inj hraw, shown_pixels_transmitted storedCoder_fills hd hrun hframe⟩

/-- A byte of the last frame that a run of payloads returns, and of the history. -/
def lastShown (payloads : List (List Byte)) (payload : List Byte) (i : Nat) : Option (Option Byte) × Option Byte :=
  (((after (decodeInto storedCoder) .default payloads).decodeInto storedCoder payload).2.toOption.map (·.image.raw[i]?),
    transmitted (TileDecoder.default.history storedCoder (payloads ++ [payload])) i)

/-- A keyframe that marks a padding bit in place of its tile, and a keepalive after a keyframe that cannot be decoded, show
the zero fill of the new canvas. -/
theorem zero_fill_shown : lastShown [] (pixelPayload 1 1 1 1 2 (greyCell 9)) 0 = (some (some 0), none) ∧
    lastShown [pixelPayload 1 1 1 1 1 [0]] (pixelPayload 2 1 0 0 0 []) 0 = (some (some 0), none) := by
  decide +kernel

end Jwm.Remote
