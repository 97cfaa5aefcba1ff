/-
Incremental presentation (`remote/frame.rs`, `remote/x11_viewer.rs`): a viewer that shows some of the decoded frames, each
patched over the canvas of the frame shown before it.
-/
import Jwm.Remote.TileProvenance

namespace Jwm.Remote

open List Option TileSnapshot TileDecoder

/-! ## Presenting a frame -/

/-- `RecyclableDecodedFrame` on the screen: its metadata and tiles, and the RGB canvas it holds. -/
structure PresentedFrame where
  frame : DecodedFrame
  image : RgbImage

namespace DecodedFrame

/-- `encoded_dimensions`. -/
def dimensions (frame : DecodedFrame) : Nat × Nat := (frame.snapshot.width, frame.snapshot.height)

def SameGeometry (frame previous : DecodedFrame) : Prop :=
  frame.geometryEpoch = previous.geometryEpoch ∧ frame.dimensions = previous.dimensions ∧
    (frame.sourceWidth, frame.sourceHeight) = (previous.sourceWidth, previous.sourceHeight)

instance (frame previous : DecodedFrame) : Decidable (frame.SameGeometry previous) :=
  inferInstanceAs (Decidable (_ ∧ _ ∧ _))

/-- `reuse_canvas_from`, and `image` where the canvas cannot be taken over. -/
def reuseCanvasFrom (frame : DecodedFrame) (previous : PresentedFrame) : PresentedFrame :=
  if frame.SameGeometry previous.frame then
    let (image, regions) := frame.snapshot.apply previous.image (some previous.frame.snapshot)
    ⟨{ frame with damage := some ⟨previous.frame.sequence, regions⟩ }, image⟩
  else ⟨frame, frame.image⟩

/-- `damage_base_matches` of the viewer. -/
def damageBaseMatches (previous frame : DecodedFrame) (damage : FrameDamage) : Bool :=
  previous.geometryEpoch = frame.geometryEpoch && previous.sequence = damage.baseSequence &&
    previous.dimensions = frame.dimensions &&
    (previous.sourceWidth, previous.sourceHeight) = (frame.sourceWidth, frame.sourceHeight)

theorem sameGeometry_of_matches {previous frame : DecodedFrame} {damage : FrameDamage}
    (h : damageBaseMatches previous frame damage = true) :
    damage.baseSequence = previous.sequence ∧ frame.SameGeometry previous := by
  simp only [damageBaseMatches, Bool.and_eq_true, decide_eq_true_eq] at h
  obtain ⟨⟨⟨hepoch, hseq⟩, hdim⟩, hsource⟩ := h
  exact ⟨hseq.symm, hepoch.symm, hdim.symm, hsource.symm⟩

end DecodedFrame

/-! ## The viewer -/

/-- A decoder and the frame on the screen. -/
structure TileViewer where
  decoder : TileDecoder
  shown : Option PresentedFrame

/-- One payload, and whether the viewer gets to present its frame. -/
structure ViewOp where
  payload : List Byte
  present : Bool

/-- A frame as it is presented, the one it replaces, and the decoder's canvas at that time. -/
structure Presentation where
  previous : Option PresentedFrame
  shown : PresentedFrame
  canvas : Option RgbImage

/-- What comes of a payload. -/
structure ViewResult where
  accepted : Option DecodedFrame
  presentation : Option Presentation

namespace TileViewer

variable (coder : AtlasCoder)

/-- `draw_recyclable`. -/
def drawRecyclable (shown : Option PresentedFrame) (frame : DecodedFrame) : PresentedFrame :=
  match shown with
  | some previous => frame.reuseCanvasFrom previous
  | none => ⟨frame, frame.image⟩

def step (v : TileViewer) (op : ViewOp) : TileViewer × ViewResult :=
  match v.decoder.decodeInto coder op.payload with
  | (d, .error _) => (⟨d, v.shown⟩, ⟨none, none⟩)
  | (d, .ok frame) =>
    if op.present then
      (⟨d, some (drawRecyclable v.shown frame)⟩, ⟨some frame, some ⟨v.shown, drawRecyclable v.shown frame, d.canvas⟩⟩)
    else (⟨d, v.shown⟩, ⟨some frame, none⟩)

/-- The payload is accepted, or it is not a keyframe that passed the checks. -/
def Settles (v : TileViewer) (op : ViewOp) : Prop :=
  (∃ frame, (v.decoder.decodeInto coder op.payload).2 = .ok frame) ∨
    ∀ header, v.decoder.accept op.payload = .ok header → header.keyframe = false

end TileViewer

/-- Every pixel that differs from the frame before lies in a damage region. -/
def Presentation.Covers (p : Presentation) (previous : PresentedFrame) (damage : FrameDamage) : Prop :=
  ∀ x y k, x < p.shown.image.width → y < p.shown.image.height → k < 3 →
    previous.image.raw[(y * p.shown.image.width + x) * 3 + k]? ≠ p.shown.image.raw[(y * p.shown.image.width + x) * 3 + k]? →
    damage.regions.Has x y

/-- The frame shows the decoder's canvas. When its damage names the frame before it, the damage covers
what changed: if both have one geometry, which the viewer tests, or if the sequences of the
accepted frames are `distinct`. -/
structure Presentation.Faithful (p : Presentation) (distinct : Prop) : Prop where
  canvas : p.canvas = some p.shown.image
  covers : ∀ previous damage, p.previous = some previous → p.shown.frame.damage = some damage →
    damage.baseSequence = previous.frame.sequence → (p.shown.frame.SameGeometry previous.frame ∨ distinct) →
    p.Covers previous damage

/-- The sequence numbers of the accepted frames of a run. -/
def acceptedSequences (calls : List (ViewOp × ViewResult)) : List Nat :=
  calls.filterMap fun call => call.2.accepted.map (·.sequence)

def presentations (calls : List (ViewOp × ViewResult)) : List Presentation :=
  calls.filterMap fun call => call.2.presentation

/-! ## Patching the screen -/

section Draw

variable {shown : Option PresentedFrame} {frame : DecodedFrame} {previous : PresentedFrame} {canvas : RgbImage}

/-- The frame on the screen shows its image, and shares tiles with `p` only where both hold the same pixels. -/
structure PresentedFrame.Current (s : PresentedFrame) (version : Nat) (p : Option TileSnapshot) : Prop where
  shows : s.frame.snapshot.Shows s.image
  before : s.frame.snapshot.Before version
  agree : ∀ q, p = some q → TileSnapshot.Agree q s.frame.snapshot

open TileViewer DecodedFrame

theorem drawRecyclable_frame (shown : Option PresentedFrame) (frame : DecodedFrame) :
    ∃ damage, (drawRecyclable shown frame).frame = { frame with damage := damage } := by
  unfold drawRecyclable
  cases shown with
  | none => exact ⟨frame.damage, rfl⟩
  | some previous =>
    unfold reuseCanvasFrom
    dsimp only
    split
    · exact ⟨_, rfl⟩
    · exact ⟨frame.damage, rfl⟩

/-- Without a frame of its geometry before it, a frame keeps the decoder's damage. -/
theorem drawRecyclable_other (h : ¬ frame.SameGeometry previous.frame) :
    (drawRecyclable (some previous) frame).frame = frame := by
  unfold drawRecyclable reuseCanvasFrom
  dsimp only
  rw [if_neg h]

theorem dimensions_of_shows {s : TileSnapshot} (hs : s.Shows canvas) : canvas.dimensions = (s.width, s.height) :=
  Prod.ext hs.width.symm hs.height.symm

theorem drawRecyclable_image (hs : frame.snapshot.Shows canvas)
    (hshown : ∀ s, shown = some s → s.frame.snapshot.Shows s.image ∧ TileSnapshot.Agree frame.snapshot s.frame.snapshot) :
    (drawRecyclable shown frame).image = canvas := by
  unfold drawRecyclable
  cases shown with
  | none => exact materialize_eq hs
  | some previous =>
    unfold reuseCanvasFrom
    dsimp only
    obtain ⟨hp, hagree⟩ := hshown previous rfl
    split
    · rename_i hsame
      refine apply_eq hs hp hagree ?_
      rw [dimensions_of_shows hs, dimensions_of_shows hp]
      exact hsame.2.1.symm
    · exact materialize_eq hs

theorem drawRecyclable_covers {damage : FrameDamage} (hs : frame.snapshot.Shows canvas)
    (hp : previous.frame.snapshot.Shows previous.image) (hagree : TileSnapshot.Agree frame.snapshot previous.frame.snapshot)
    (hsame : frame.SameGeometry previous.frame)
    (hdamage : (drawRecyclable (some previous) frame).frame.damage = some damage) {x y k : Nat}
    (hx : x < canvas.width) (hy : y < canvas.height) (hk : k < 3)
    (hne : previous.image.raw[(y * canvas.width + x) * 3 + k]? ≠ canvas.raw[(y * canvas.width + x) * 3 + k]?) :
    damage.regions.Has x y := by
  unfold drawRecyclable reuseCanvasFrom at hdamage
  dsimp only at hdamage
  rw [if_pos hsame] at hdamage
  obtain rfl := some.inj hdamage
  show (frame.snapshot.apply previous.image (some previous.frame.snapshot)).2.Has x y
  exact apply_damage hs hp hagree hx hy hk hne

end Draw

/-! ## One payload -/

/-- What holds while a viewer runs: the screen shows its frame, shares tiles with the decoder only where they agree, and what
was presented was faithful; distinct sequences fix the geometry. -/
structure Viewing (calls : List (ViewOp × ViewResult)) (v : TileViewer) : Prop where
  mirrors : v.decoder.Mirrors
  shown : ∀ s, v.shown = some s → s.Current v.decoder.version v.decoder.snapshot
  sequence : ∀ s, v.shown = some s → s.frame.sequence ∈ acceptedSequences calls
  last : (acceptedSequences calls).Nodup → ∀ s, v.shown = some s → v.decoder.lastSequence = some s.frame.sequence →
    v.decoder.geometryEpoch = s.frame.geometryEpoch ∧ v.decoder.source = (s.frame.sourceWidth, s.frame.sourceHeight) ∧
      v.decoder.canvas.map RgbImage.dimensions = some s.frame.dimensions
  faithful : ∀ p ∈ presentations calls, p.Faithful (acceptedSequences calls).Nodup

section Step

variable {coder : AtlasCoder} {v : TileViewer} {op : ViewOp} {calls : List (ViewOp × ViewResult)} {t : Transmission}
  {frame : DecodedFrame} {base canvas : RgbImage}

theorem acceptedSequences_append (call : ViewOp × ViewResult) : acceptedSequences (calls ++ [call]) =
    acceptedSequences calls ++ (call.2.accepted.map (·.sequence)).toList := by
  unfold acceptedSequences
  rw [filterMap_append]
  cases h : call.2.accepted <;> simp [h]

theorem presentations_append (call : ViewOp × ViewResult) :
    presentations (calls ++ [call]) = presentations calls ++ call.2.presentation.toList := by
  unfold presentations
  rw [filterMap_append]
  cases h : call.2.presentation <;> simp [h]

theorem Viewing.failed (h : Viewing calls v) (atlas : List Byte) :
    Viewing (calls ++ [(op, ⟨none, none⟩)]) ⟨{ v.decoder with atlas := atlas }, v.shown⟩ := by
  have hseq : acceptedSequences (calls ++ [(op, ⟨none, none⟩)]) = acceptedSequences calls := by
    rw [acceptedSequences_append]
    exact append_nil _
  have hpres : presentations (calls ++ [(op, ⟨none, none⟩)]) = presentations calls := by
    rw [presentations_append]
    exact append_nil _
  refine ⟨⟨h.mirrors.shows, h.mirrors.before⟩, h.shown, ?_, ?_, ?_⟩
  · rw [hseq]
    exact h.sequence
  · rw [hseq]
    exact h.last
  · rw [hseq, hpres]
    exact h.faithful

/-- The decoder's part of a frame that was drawn. -/
structure DrawnFrame (v : TileViewer) (t : Transmission) (canvas : RgbImage) (d : TileDecoder) (frame : DecodedFrame) : Prop where
  shows : frame.snapshot.Shows canvas
  before : frame.snapshot.Before d.version
  version : d.version = v.decoder.version + 1
  agree : ∀ s, s.Before v.decoder.version → (∀ q, v.decoder.snapshot = some q → TileSnapshot.Agree q s) →
    TileSnapshot.Agree frame.snapshot s
  snapshot : d.snapshot = some frame.snapshot
  canvas : d.canvas = some canvas
  lastSequence : d.lastSequence = some frame.sequence
  epoch : d.geometryEpoch = frame.geometryEpoch
  source : d.source = (frame.sourceWidth, frame.sourceHeight)
  damage : ∀ damage, frame.damage = some damage → v.decoder.lastSequence = some damage.baseSequence ∧
    v.decoder.geometryEpoch = frame.geometryEpoch ∧ v.decoder.source = (frame.sourceWidth, frame.sourceHeight) ∧
    v.decoder.canvas.map RgbImage.dimensions = some frame.dimensions

theorem drawnFrame (hm : v.decoder.Mirrors) (ha : v.decoder.accept op.payload = .ok t.header)
    (hbitmap : t.bitmap = bitmapOf t.header op.payload) (hbase : (v.decoder.adopt t.header).canvas = some base)
    (hpaint : Painted t base canvas) (atlas : List Byte) :
    DrawnFrame v t canvas
      (({ v.decoder.adopt t.header with atlas := atlas, canvas := some canvas } : TileDecoder).present t.header op.payload canvas).1
      (({ v.decoder.adopt t.header with atlas := atlas, canvas := some canvas } : TileDecoder).present t.header op.payload canvas).2 := by
  have hshows := present_shows atlas hm ha hbitmap hbase hpaint
  refine ⟨hshows, ?_, rfl, ?_, rfl, rfl, rfl, rfl, rfl, ?_⟩
  · exact update_before fun p hp => hm.before p (adopt_snapshot hp)
  · exact fun s hs hq => update_agree hs fun p hp => hq p (adopt_snapshot hp)
  · intro damage hdamage
    unfold present at hdamage
    cases hk : t.header.keyframe with
    | true =>
      simp only [hk, if_true] at hdamage
      cases hdamage
    | false =>
      -- a delta: the geometry is the decoder's
      obtain ⟨-, -, -, -, hdelta⟩ := accept_spec ha
      obtain ⟨hepoch, hsource⟩ := hdelta hk
      simp only [hk, Bool.false_eq_true, if_false, adopt_delta ha hk] at hdamage
      obtain ⟨q, hq, rfl⟩ := map_eq_some_iff.1 hdamage
      rw [adopt_delta ha hk] at hbase
      refine ⟨hq, hepoch, hsource, ?_⟩
      rw [hbase, map_some, hpaint.base_dimensions, ← hpaint.dimensions, dimensions_of_shows hshows]
      rfl

variable {d : TileDecoder}

theorem DrawnFrame.mirrors (hd : DrawnFrame v t canvas d frame) : d.Mirrors := by
  refine ⟨fun p hp => ?_, fun p hp => ?_⟩
  · rw [hd.snapshot] at hp
    obtain rfl := some.inj hp
    exact ⟨canvas, hd.canvas, hd.shows⟩
  · rw [hd.snapshot] at hp
    obtain rfl := some.inj hp
    exact hd.before

theorem Presentation.Faithful.mono {p : Presentation} {distinct distinct' : Prop} (h : p.Faithful distinct)
    (himp : distinct' → distinct) : p.Faithful distinct' :=
  ⟨h.canvas, fun previous damage h1 h2 h3 hor => h.covers previous damage h1 h2 h3 (hor.imp_right himp)⟩

section

variable (h : Viewing calls v) (hd : DrawnFrame v t canvas d frame)
include h hd

theorem Viewing.skipped : Viewing (calls ++ [(op, ⟨some frame, none⟩)]) ⟨d, v.shown⟩ := by
  have hseq : acceptedSequences (calls ++ [(op, ⟨some frame, none⟩)]) = acceptedSequences calls ++ [frame.sequence] :=
    acceptedSequences_append _
  have hpres : presentations (calls ++ [(op, ⟨some frame, none⟩)]) = presentations calls := by
    rw [presentations_append]
    exact append_nil _
  refine ⟨?_, fun s hs => ?_, fun s hs => ?_, fun hnodup s hs hlast => ?_, fun p hp => ?_⟩
  · exact hd.mirrors
  · have hcur := h.shown s hs
    refine ⟨hcur.shows, fun u hu => ?_, fun q hq => ?_⟩
    · rw [hd.version]
      exact Nat.lt_succ_of_lt (hcur.before u hu)
    · rw [show d.snapshot = some frame.snapshot from hd.snapshot] at hq
      obtain rfl := some.inj hq
      exact hd.agree _ hcur.before hcur.agree
  · rw [hseq]
    exact mem_append_left _ (h.sequence s hs)
  · -- the frame on the screen has another sequence
    rw [hseq] at hnodup
    rw [show d.lastSequence = some frame.sequence from hd.lastSequence] at hlast
    have hmem := h.sequence s hs
    rw [← some.inj hlast] at hmem
    exact absurd hmem (nodup_append.1 hnodup |>.2.2 _ · _ (mem_singleton_self _) rfl)
  · rw [hpres] at hp
    refine (h.faithful p hp).mono fun hn => ?_
    rw [hseq] at hn
    exact hn.of_append_left

theorem DrawnFrame.faithful :
    Presentation.Faithful ⟨v.shown, TileViewer.drawRecyclable v.shown frame, d.canvas⟩ (acceptedSequences calls).Nodup := by
  have hshown : ∀ s, v.shown = some s →
      s.frame.snapshot.Shows s.image ∧ TileSnapshot.Agree frame.snapshot s.frame.snapshot := by
    intro s hs
    have hcur := h.shown s hs
    exact ⟨hcur.shows, hd.agree _ hcur.before hcur.agree⟩
  have himage := drawRecyclable_image hd.shows hshown
  refine ⟨?_, fun previous damage hprevious hdamage hbase hor => ?_⟩
  · rw [hd.canvas, himage]
  · obtain ⟨hshows, hagree⟩ := hshown previous hprevious
    simp only at hprevious hdamage
    have hsame : frame.SameGeometry previous.frame := by
      rcases hor with hsame | hnodup
      · obtain ⟨_, hframe⟩ := drawRecyclable_frame v.shown frame
        rw [hframe] at hsame
        exact hsame
      · -- otherwise the damage is the decoder's, whose predecessor is on the screen
        by_contra hother
        rw [hprevious, drawRecyclable_other hother] at hdamage
        obtain ⟨hlast, hepoch, hsource, hdim⟩ := hd.damage damage hdamage
        rw [hbase] at hlast
        obtain ⟨hepoch', hsource', hdim'⟩ := h.last hnodup previous hprevious hlast
        refine hother ⟨hepoch.symm.trans hepoch', ?_, hsource.symm.trans hsource'⟩
        exact some.inj (hdim.symm.trans hdim')
    rw [hprevious] at hdamage
    intro x y k hx hy hk hne
    simp only [himage] at hx hy hne
    exact drawRecyclable_covers hd.shows hshows hagree hsame hdamage hx hy hk hne

theorem Viewing.presented :
    Viewing (calls ++ [(op, ⟨some frame, some ⟨v.shown, TileViewer.drawRecyclable v.shown frame, d.canvas⟩⟩)])
      ⟨d, some (TileViewer.drawRecyclable v.shown frame)⟩ := by
  have hfaithful := hd.faithful h
  generalize hp : TileViewer.drawRecyclable v.shown frame = shown at hfaithful ⊢
  obtain ⟨damage, hframe⟩ := drawRecyclable_frame v.shown frame
  rw [hp] at hframe
  have himage : shown.image = canvas := some.inj (hfaithful.canvas.symm.trans hd.canvas)
  have hseq : acceptedSequences (calls ++ [(op, ⟨some frame, some ⟨v.shown, shown, d.canvas⟩⟩)]) =
      acceptedSequences calls ++ [frame.sequence] := acceptedSequences_append _
  have hpres : presentations (calls ++ [(op, ⟨some frame, some ⟨v.shown, shown, d.canvas⟩⟩)]) =
      presentations calls ++ [⟨v.shown, shown, d.canvas⟩] := presentations_append _
  have hnodup : (acceptedSequences (calls ++ [(op, ⟨some frame, some ⟨v.shown, shown, d.canvas⟩⟩)])).Nodup →
      (acceptedSequences calls).Nodup := by
    intro hn
    rw [hseq] at hn
    exact hn.of_append_left
  refine ⟨hd.mirrors, ?_, ?_, ?_, ?_⟩
  · rintro s hs
    obtain rfl := some.inj hs
    refine ⟨?_, ?_, fun q hq => ?_⟩
    · rw [hframe, himage]
      exact hd.shows
    · rw [hframe]
      exact hd.before
    · rw [show d.snapshot = some frame.snapshot from hd.snapshot] at hq
      obtain rfl := some.inj hq
      rw [hframe]
      exact .refl _
  · rintro s hs
    obtain rfl := some.inj hs
    rw [hseq, hframe]
    exact mem_append_right _ (mem_singleton_self _)
  · rintro - s hs -
    obtain rfl := some.inj hs
    rw [hframe]
    refine ⟨hd.epoch, hd.source, ?_⟩
    rw [hd.canvas, map_some, dimensions_of_shows hd.shows]
    rfl
  · intro p hp
    rw [hpres] at hp
    rcases mem_append.1 hp with hp | hp
    · exact (h.faithful p hp).mono hnodup
    · obtain rfl := mem_singleton.1 hp
      exact hfaithful.mono hnodup

end

theorem Viewing.step (hf : coder.Fills) (h : Viewing calls v) (hsettles : v.Settles coder op) :
    Viewing (calls ++ [(op, (v.step coder op).2)]) (v.step coder op).1 := by
  have hcases := decodeInto_cases hf v.decoder op.payload
  unfold TileViewer.Settles at hsettles
  unfold TileViewer.step
  generalize v.decoder.decodeInto coder op.payload = result at hcases hsettles ⊢
  cases hcases with
  | refused error => exact h.failed v.decoder.atlas
  | failed header atlas error error' ha hatlas =>
    rcases hsettles with ⟨frame, hok⟩ | hdelta
    · cases hok
    · rw [adopt_delta ha (hdelta header ha)]
      exact h.failed atlas
  | drawn t atlas base canvas ha hread hbitmap hatlas hbase hpaint =>
    have hd := drawnFrame h.mirrors ha hbitmap hbase hpaint atlas
    dsimp only
    split
    · exact h.presented hd
    · exact h.skipped hd

end Step

/-! ## Whole runs -/

/-- Incremental presentation equals full presentation. For any payloads of which no admitted keyframe fails, each presented
frame shows the decoder's canvas of the moment it was decoded, and when its damage names the frame presented before it, every
pixel that differs lies in a damage region. -/
theorem presentation_faithful {coder : AtlasCoder} (hf : coder.Fills) {limits : FrameLimits} {d : TileDecoder}
    (hd : TileDecoder.withFrameLimits limits = .ok d) {ops : List ViewOp}
    (hrun : Along (TileViewer.Settles coder) (TileViewer.step coder) ⟨d, none⟩ ops) :
    ∀ p ∈ presentations (trace (TileViewer.step coder) ⟨d, none⟩ ops), p.canvas = some p.shown.image ∧
      ∀ previous damage, p.previous = some previous → p.shown.frame.damage = some damage →
        (DecodedFrame.damageBaseMatches previous.frame p.shown.frame damage = true ∨
          (damage.baseSequence = previous.frame.sequence ∧
            (acceptedSequences (trace (TileViewer.step coder) ⟨d, none⟩ ops)).Nodup)) →
        p.Covers previous damage := by
  obtain ⟨-, hd⟩ := unit_bind_eq_ok.1 hd
  obtain rfl := pure_eq_ok.1 hd
  have hinit : Viewing [] ⟨{ default with frameLimits := limits }, none⟩ :=
    ⟨mirrors_of_new rfl, nofun, nofun, fun _ => nofun, fun p hp => absurd hp not_mem_nil⟩
  have hview := trace_invariant_along (fun _ _ _ hs h => Viewing.step hf h hs) hinit hrun
  intro p hp
  have hfaithful := hview.faithful p hp
  refine ⟨hfaithful.canvas, fun previous damage hprevious hdamage hor => ?_⟩
  rcases hor with hmatch | ⟨hbase, hnodup⟩
  · obtain ⟨hbase, hsame⟩ := DecodedFrame.sameGeometry_of_matches hmatch
    exact hfaithful.covers previous damage hprevious hdamage hbase (.inl hsame)
  · exact hfaithful.covers previous damage hprevious hdamage hbase (.inr hnodup)

/-- A keyframe and a keepalive are shown, the delta between them is skipped. -/
def skippedDelta : List ViewOp :=
  [⟨pixelPayload 1 1 1 1 1 (greyCell 9), true⟩, ⟨pixelPayload 2 1 0 1 1 (greyCell 20), false⟩, ⟨pixelPayload 3 1 0 0 0 [], true⟩]

theorem settles_of_accepted {coder : AtlasCoder} {v : TileViewer} {op : ViewOp}
    (h : (v.decoder.decodeInto coder op.payload).2.toOption.isSome = true) : v.Settles coder op := by
  cases hok : (v.decoder.decodeInto coder op.payload).2 with
  | ok frame => exact .inl ⟨frame, hok⟩
  | error error =>
    rw [hok] at h
    cases h

theorem presentation_faithful_skippedDelta :
    (presentations (trace (TileViewer.step storedCoder) ⟨.default, none⟩ skippedDelta)).map
        (fun p => (p.shown.image.raw, p.shown.frame.damage.map (·.baseSequence))) =
      [([9, 9, 9], none), ([20, 20, 20], some 1)] ∧
    ∀ p ∈ presentations (trace (TileViewer.step storedCoder) ⟨.default, none⟩ skippedDelta), p.canvas = some p.shown.image ∧
      ∀ previous damage, p.previous = some previous → p.shown.frame.damage = some damage →
        (DecodedFrame.damageBaseMatches previous.frame p.shown.frame damage = true ∨
          (damage.baseSequence = previous.frame.sequence ∧
            (acceptedSequences (trace (TileViewer.step storedCoder) ⟨.default, none⟩ skippedDelta)).Nodup)) →
        p.Covers previous damage := by
  have hd : withFrameLimits .default = .ok .default := rfl
  refine ⟨by decide +kernel, presentation_faithful storedCoder_fills hd ⟨?_, ?_, ?_, trivial⟩⟩
  · exact settles_of_accepted (by decide +kernel)
  · exact settles_of_accepted (by decide +kernel)
  · exact settles_of_accepted (by decide +kernel)

/-- A keyframe of a new epoch that repeats the sequence on the screen is skipped, and the keepalive after
it is shown. -/
def repeatedSequence : List ViewOp :=
  [⟨pixelPayload 1 1 1 1 1 (greyCell 9), true⟩, ⟨pixelPayload 1 2 1 1 1 (greyCell 20), false⟩, ⟨pixelPayload 2 2 0 0 0 [], true⟩]

/-- Sequences alone do not name a frame: the damage of the keepalive is empty, and yet every pixel changed. -/
theorem damage_of_repeated_sequence :
    acceptedSequences (trace (TileViewer.step storedCoder) ⟨.default, none⟩ repeatedSequence) = [1, 1, 2] ∧
    ∃ p ∈ presentations (trace (TileViewer.step storedCoder) ⟨.default, none⟩ repeatedSequence), ∃ previous damage,
      p.previous = some previous ∧ p.shown.frame.damage = some damage ∧ damage.baseSequence = previous.frame.sequence ∧
      ¬ p.Covers previous damage := by
  refine ⟨by decide +kernel, ?_⟩
  have hshown : (presentations (trace (TileViewer.step storedCoder) ⟨.default, none⟩ repeatedSequence))[1]?.map (fun p =>
      (p.previous.map (fun q => (q.frame.sequence, q.image.raw)), p.shown.image.dimensions, p.shown.image.raw,
        p.shown.frame.damage)) = some (some (1, [9, 9, 9]), (1, 1), [20, 20, 20], some ⟨1, ⟨[], false⟩⟩) := by decide +kernel
  obtain ⟨p, hp, hfields⟩ := map_eq_some_iff.1 hshown
  obtain ⟨hprevious, hdim, hraw, hdamage⟩ : _ ∧ _ ∧ _ ∧ _ := by simpa only [Prod.mk.injEq] using hfields
  obtain ⟨previous, hprevious, hold⟩ := map_eq_some_iff.1 hprevious
  obtain ⟨hseq, hbytes⟩ := Prod.mk.inj hold
  obtain ⟨hw, hh⟩ := Prod.mk.inj hdim
  refine ⟨p, mem_of_getElem? hp, previous, _, hprevious, hdamage, hseq.symm, fun hcovers => ?_⟩
  obtain ⟨rect, hrect, -⟩ := hcovers 0 0 0 (by rw [hw]; decide) (by rw [hh]; decide) (by decide)
    (by rw [hw, hraw, hbytes]; decide)
  exact absurd hrect not_mem_nil

end Jwm.Remote
