/-
A rejected delta leaves the viewer as it was: whatever check turns it away, and however late, only the
scratch buffer of the atlas may differ afterwards, and no later frame depends on that buffer.
-/
import Jwm.Remote.TileProvenance

namespace Jwm.Remote.TileDecoder

variable {coder : AtlasCoder} {d d' : TileDecoder} {payload : List Byte} {header : TileHeader}

/-! ## The scratch buffer -/

/-- The decoders differ in the atlas buffer at most. -/
structure AgreesButAtlas (d d' : TileDecoder) : Prop where
  frameLimits : d'.frameLimits = d.frameLimits
  geometryEpoch : d'.geometryEpoch = d.geometryEpoch
  snapshot : d'.snapshot = d.snapshot
  lastSequence : d'.lastSequence = d.lastSequence
  canvas : d'.canvas = d.canvas
  source : d'.source = d.source
  version : d'.version = d.version

theorem AgreesButAtlas.refl (d : TileDecoder) : AgreesButAtlas d d := ⟨rfl, rfl, rfl, rfl, rfl, rfl, rfl⟩

theorem AgreesButAtlas.with_atlas (d : TileDecoder) (atlas : List Byte) : AgreesButAtlas d { d with atlas := atlas } :=
  ⟨rfl, rfl, rfl, rfl, rfl, rfl, rfl⟩

theorem AgreesButAtlas.eq_with (h : AgreesButAtlas d d') : d' = { d with atlas := d'.atlas } := by
  obtain ⟨h1, h2, h3, h4, h5, h6, h7⟩ := h
  rw [← h1, ← h2, ← h3, ← h4, ← h5, ← h6, ← h7]

theorem decodeAtlas_scratch (coder : AtlasCoder) (atlas other body : List Byte) (atlasWidth atlasHeight payloadLen : Nat) :
    (decodeAtlas coder other body atlasWidth atlasHeight payloadLen).2 =
        (decodeAtlas coder atlas body atlasWidth atlasHeight payloadLen).2 ∧
      ((decodeAtlas coder atlas body atlasWidth atlasHeight payloadLen).2 = .ok () →
        (decodeAtlas coder other body atlasWidth atlasHeight payloadLen).1 =
          (decodeAtlas coder atlas body atlasWidth atlasHeight payloadLen).1) := by
  unfold decodeAtlas
  split
  · exact ⟨rfl, fun h => by cases h⟩
  split
  · exact ⟨rfl, fun h => by cases h⟩
  dsimp only
  split
  · exact ⟨rfl, fun h => by cases h⟩
  split
  · split
    · exact ⟨rfl, fun h => by cases h⟩
    · exact ⟨rfl, fun _ => by split <;> rfl⟩
  · split
    · exact ⟨rfl, fun h => by cases h⟩
    split
    · exact ⟨rfl, fun h => by cases h⟩
    · exact ⟨rfl, fun _ => rfl⟩

/-- Drawing changes the canvas and the buffer only, and the canvas only when it succeeds. -/
theorem draw_spec (coder : AtlasCoder) (d : TileDecoder) (header : TileHeader) (payload : List Byte) (canvas : RgbImage)
    (atlas : List Byte) :
    (∃ error other other', d.draw coder header payload canvas = ({ d with atlas := other }, .error error) ∧
      ({ d with atlas := atlas } : TileDecoder).draw coder header payload canvas = ({ d with atlas := other' }, .error error)) ∨
    ∃ drawn canvas' other other', d.draw coder header payload canvas = ({ d with atlas := other, canvas := canvas' }, .ok drawn) ∧
      ({ d with atlas := atlas } : TileDecoder).draw coder header payload canvas =
        ({ d with atlas := other', canvas := canvas' }, .ok drawn) := by
  unfold draw
  split
  · exact .inr ⟨canvas, d.canvas, d.atlas, atlas, rfl, rfl⟩
  split
  · exact .inl ⟨_, d.atlas, atlas, rfl, rfl⟩
  rename_i atlasWidth atlasHeight _
  dsimp only
  split
  · exact .inl ⟨_, d.atlas, atlas, rfl, rfl⟩
  obtain ⟨hresult, hfilled⟩ := decodeAtlas_scratch coder d.atlas atlas
    (payload.drop (tileHeaderLen + bitmapLen header.totalTiles)) atlasWidth atlasHeight payload.length
  generalize decodeAtlas coder d.atlas _ atlasWidth atlasHeight payload.length = r at hresult hfilled ⊢
  generalize decodeAtlas coder atlas _ atlasWidth atlasHeight payload.length = r' at hresult hfilled ⊢
  obtain ⟨other, outcome⟩ := r
  obtain ⟨other', outcome'⟩ := r'
  subst hresult
  cases outcome' with
  | error error => exact .inl ⟨error, other, other', rfl, rfl⟩
  | ok u =>
    obtain rfl := hfilled rfl
    exact .inr ⟨_, _, other', other', rfl, rfl⟩

theorem decodeInto_agrees (coder : AtlasCoder) (d d' : TileDecoder) (payload : List Byte) (h : AgreesButAtlas d d') :
    (d.decodeInto coder payload).2 = (d'.decodeInto coder payload).2 ∧
      AgreesButAtlas (d.decodeInto coder payload).1 (d'.decodeInto coder payload).1 := by
  rw [h.eq_with]
  generalize d'.atlas = atlas
  have haccept : ({ d with atlas := atlas } : TileDecoder).accept payload = d.accept payload := rfl
  unfold decodeInto
  rw [haccept]
  cases d.accept payload with
  | error error => exact ⟨rfl, .with_atlas d atlas⟩
  | ok header =>
    have hadopt : ({ d with atlas := atlas } : TileDecoder).adopt header = { d.adopt header with atlas := atlas } := rfl
    dsimp only
    rw [hadopt]
    dsimp only
    generalize d.adopt header = a
    split
    · exact ⟨rfl, .with_atlas a atlas⟩
    rename_i canvas _
    rcases draw_spec coder a header payload canvas atlas with
      ⟨error, other, other', h1, h2⟩ | ⟨drawn, canvas', other, other', h1, h2⟩
    · rw [h1, h2]
      exact ⟨rfl, rfl, rfl, rfl, rfl, rfl, rfl, rfl⟩
    · rw [h1, h2]
      exact ⟨rfl, rfl, rfl, rfl, rfl, rfl, rfl, rfl⟩

/-! ## Rejections -/

/-- The payload's header does not parse as that of a keyframe. -/
def NotKeyframe (payload : List Byte) : Prop := ∀ header, TileHeader.parse payload = .ok header → header.keyframe = false

theorem accept_eq_ok (h : d.accept payload = .ok header) : TileHeader.parse payload = .ok header ∧
    (header.keyframe = false → d.geometryEpoch = header.geometryEpoch ∧ d.source = (header.sourceWidth, header.sourceHeight)) := by
  unfold accept at h
  simp only [bind_eq_ok, rejectIf_eq_ok, pure_eq_ok] at h
  obtain ⟨parsed, hparse, _, _, _, _, _, _, _, _, _, _, _, hsame, rfl⟩ := h
  refine ⟨hparse, fun hdelta => ?_⟩
  rw [hdelta] at hsame
  simpa only [Bool.not_false, true_and, not_or, not_not] using hsame

theorem adopt_delta (hdelta : header.keyframe = false) (hepoch : d.geometryEpoch = header.geometryEpoch)
    (hsource : d.source = (header.sourceWidth, header.sourceHeight)) : d.adopt header = d := by
  unfold adopt
  simp only [hdelta, Bool.false_eq_true, if_false, hepoch, ne_eq, not_true_eq_false, ← hsource]
  rw [← hepoch]

theorem rejected_delta_agrees (hdelta : NotKeyframe payload) {error : String}
    (hrejected : (d.decodeInto coder payload).2 = .error error) : AgreesButAtlas d (d.decodeInto coder payload).1 := by
  unfold decodeInto at hrejected ⊢
  cases haccept : d.accept payload with
  | error error => exact .refl d
  | ok header =>
    obtain ⟨hparse, hsame⟩ := accept_eq_ok haccept
    obtain ⟨hepoch, hsource⟩ := hsame (hdelta header hparse)
    rw [haccept] at hrejected
    dsimp only at hrejected ⊢
    rw [adopt_delta (hdelta header hparse) hepoch hsource] at hrejected ⊢
    split
    · exact .refl d
    rename_i canvas hcanvas
    rw [hcanvas] at hrejected
    dsimp only at hrejected
    rcases draw_spec coder d header payload canvas d.atlas with ⟨error, other, _, h, -⟩ | ⟨drawn, canvas', other, _, h, -⟩
    · rw [h]
      exact .with_atlas d other
    · -- once the canvas is drawn on, the frame is shown
      rw [h] at hrejected
      cases hrejected

/-- After a rejected delta the viewer answers every later payload as if the delta had never arrived. -/
theorem rejected_delta_forgotten (coder : AtlasCoder) (d : TileDecoder) {payload : List Byte} (hdelta : NotKeyframe payload)
    {error : String} (hrejected : (d.decodeInto coder payload).2 = .error error) :
    AgreesButAtlas d (d.decodeInto coder payload).1 ∧
      ∀ later : List (List Byte),
        answers (decodeInto coder) (d.decodeInto coder payload).1 later = answers (decodeInto coder) d later ∧
          AgreesButAtlas (after (decodeInto coder) d later) (after (decodeInto coder) (d.decodeInto coder payload).1 later) := by
  have hagrees := rejected_delta_agrees hdelta hrejected
  refine ⟨hagrees, fun later => ⟨?_, ?_⟩⟩
  · exact (answers_simulation (decodeInto_agrees coder) hagrees later).symm
  · exact after_simulation (decodeInto_agrees coder) hagrees later

def greyViewer : TileDecoder := after (decodeInto storedCoder) default [pixelPayload 1 1 1 1 1 (greyCell 9)]

/-- A delta whose atlas cannot be decoded. -/
theorem rejected_delta_forgotten_pixel :
    AgreesButAtlas greyViewer (greyViewer.decodeInto storedCoder (pixelPayload 2 1 0 1 1 [0])).1 ∧
      ∀ later : List (List Byte),
        answers (decodeInto storedCoder) (greyViewer.decodeInto storedCoder (pixelPayload 2 1 0 1 1 [0])).1 later =
            answers (decodeInto storedCoder) greyViewer later ∧
          AgreesButAtlas (after (decodeInto storedCoder) greyViewer later)
            (after (decodeInto storedCoder) (greyViewer.decodeInto storedCoder (pixelPayload 2 1 0 1 1 [0])).1 later) := by
  have hdelta : NotKeyframe (pixelPayload 2 1 0 1 1 [0]) := by
    intro header h
    have hflag : (TileHeader.parse (pixelPayload 2 1 0 1 1 [0])).toOption.map (·.keyframe) = some false := by decide +kernel
    rw [h] at hflag
    exact Option.some.inj hflag
  have hrejected : (greyViewer.decodeInto storedCoder (pixelPayload 2 1 0 1 1 [0])).2.toOption.isSome = false := by
    decide +kernel
  cases hresult : (greyViewer.decodeInto storedCoder (pixelPayload 2 1 0 1 1 [0])).2 with
  | error error => exact rejected_delta_forgotten storedCoder greyViewer hdelta hresult
  | ok frame =>
    rw [hresult] at hrejected
    cases hrejected

end Jwm.Remote.TileDecoder
