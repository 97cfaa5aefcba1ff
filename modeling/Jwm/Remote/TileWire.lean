/-
One tile frame on the wire. The two sides meet at `Encoded`, which says what a successful encode
puts into the payload: the encoder produces only such payloads, and a decoder that holds the
encoder's reference accepts every one of them and draws the listed tiles.
-/
import Jwm.Remote.TilePlan

namespace Jwm.Remote

open List

namespace TileEncoder

/-- A payload of a frame and the encoder waiting for its commit. -/
structure Encoded (coder : AtlasCoder) (e₀ : TileEncoder) (frame : CapturedFrame) (request : TileEncodeRequest)
    (sequence : Nat) (p : PlannedFrame) (body : List Byte) (e : TileEncoder) (payload : List Byte) : Prop where
  model : e.model = e₀.model
  pending : e.pending = true
  grid : e.grid = (divCeil frame.image.width e₀.tile, divCeil frame.image.height e₀.tile)
  tiles_lt : e₀.tilesOf frame < 2 ^ 32
  marks : Marks (e₀.tilesOf frame) e.bitmap e.dirty
  owed : Owed e₀ frame request e.dirty
  plan : PlanFits e₀ frame request e.dirty p
  payload_eq : payload = wireHeader e₀.tileLog2 p sequence frame ++ (e.bitmap ++ body)
  body_eq : 0 < e.dirty.length → ∃ quality,
    coder.encode quality (p.columns * e₀.tile) (divCeil e.dirty.length p.columns * e₀.tile)
      (e.packAtlas frame.image p.columns (divCeil e.dirty.length p.columns)) = .ok body

section

variable {coder : AtlasCoder} {e₀ e : TileEncoder} {frame : CapturedFrame} {request : TileEncodeRequest}
  {sequence quality : Nat} {payload : List Byte}

theorem encodeInner_model : (e.encodeInner coder sequence frame quality).1.model = e.model := by
  unfold encodeInner
  split
  · rfl
  · simp only
    split
    · rfl
    split
    · rfl
    split
    · rfl
    split
    · rfl
    split
    · rfl
    · rfl

theorem encodeInto_model : (e.encodeInto coder sequence frame quality).1.model = e.model := by
  have hinner : (({ e with detected := none } : TileEncoder).encodeInner coder sequence frame quality).1.model = e.model :=
    encodeInner_model
  unfold encodeInto
  split
  · rename_i e' payload' heq
    rw [heq] at hinner
    exact hinner
  · rename_i e' error heq
    rw [heq] at hinner
    exact hinner

theorem encodeInto_eq_ok {e' : TileEncoder} (h : e.encodeInto coder sequence frame quality = (e', .ok payload)) :
    ({ e with detected := none } : TileEncoder).encodeInner coder sequence frame quality = (e', .ok payload) := by
  unfold encodeInto at h
  split at h
  · rename_i e'' payload' heq
    rw [heq]
    exact h
  · cases (Prod.mk.inj h).2

theorem encode_spec {e' : TileEncoder} (hr : Ready e₀ frame request e)
    (h : e.encodeInto coder sequence frame quality = (e', .ok payload)) :
    ∃ p body, Encoded coder e₀ frame request sequence p body e' payload := by
  replace h := encodeInto_eq_ok h
  rcases hr with ⟨-, -, hp⟩ | hs
  · simp only [hp] at h
    cases (Prod.mk.inj h).2
  unfold encodeInner at h
  simp only at h
  split at h
  · cases (Prod.mk.inj h).2
  rename_i p hp
  have hfits := hs.planned p hp
  have hlog : e.tileLog2 = e₀.tileLog2 := congrArg HostModel.tileLog2 hs.model
  split at h
  · cases (Prod.mk.inj h).2
  split at h
  · cases (Prod.mk.inj h).2
  split at h
  · rename_i hatlas
    obtain ⟨rfl, hpay⟩ := Prod.mk.inj h
    refine ⟨p, [], hs.model, rfl, hs.grid, hs.tiles_lt, hs.marks, hs.selected, hfits, ?_, fun hpos => ?_⟩
    · rw [← Except.ok.inj hpay, hlog, append_nil]
    · have := (hfits.atlas.size hpos).1
      rw [hatlas] at this
      cases this
  · rename_i rows width height hatlas
    have hpos : 0 < e.dirty.length := by
      refine Nat.pos_of_ne_zero fun h0 => ?_
      have := (hfits.atlas.empty h0).2
      rw [hatlas] at this
      cases this
    have hsize := (hfits.atlas.size hpos).1
    rw [hatlas] at hsize
    obtain ⟨rfl, hdims⟩ := Prod.mk.inj (Option.some.inj hsize)
    obtain ⟨rfl, rfl⟩ := Prod.mk.inj hdims
    split at h
    · cases (Prod.mk.inj h).2
    rename_i body hbody
    split at h
    · cases (Prod.mk.inj h).2
    rename_i payload' happend
    obtain ⟨rfl, hpay⟩ := Prod.mk.inj h
    refine ⟨p, body, hs.model, rfl, hs.grid, hs.tiles_lt, hs.marks, hs.selected, hfits, ?_, fun _ => ⟨_, hbody⟩⟩
    unfold appendBounded at happend
    split at happend
    · cases happend
    · rw [← Except.ok.inj hpay, ← Except.ok.inj happend, hlog, append_assoc]

end

end TileEncoder

/-! ## The header round trip -/

/-- The dimensions of a frame pass the checks of both sides; a host captures within the limits it
negotiated with the viewer. -/
structure CapturedFrame.Valid (limits : FrameLimits) (frame : CapturedFrame) : Prop where
  source : validateDimensions frame.sourceWidth frame.sourceHeight = .ok ()
  encoded : validateDimensions frame.image.width frame.image.height = .ok ()
  accepted : limits.validateDimensions frame.image.width frame.image.height = .ok ()

theorem CapturedFrame.Valid.of_default {frame : CapturedFrame}
    (hs : validateDimensions frame.sourceWidth frame.sourceHeight = .ok ())
    (he : validateDimensions frame.image.width frame.image.height = .ok ()) : frame.Valid .default := by
  refine ⟨hs, he, ?_⟩
  obtain ⟨h1, h2, h3, h4, h5⟩ := validateDimensions_ok he
  have hlimits : FrameLimits.default.validate = .ok () := rfl
  unfold FrameLimits.validateDimensions
  rw [hlimits]
  refine if_neg ?_
  simp only [Bool.or_eq_true, decide_eq_true_eq, not_or]
  exact ⟨⟨⟨⟨by omega, by omega⟩, Nat.not_lt.2 h3⟩, Nat.not_lt.2 h4⟩, Nat.not_lt.2 h5⟩

/-- What a viewer reads off the header of a planned frame. -/
def headerOf (e₀ : TileEncoder) (frame : CapturedFrame) (sequence : Nat) (p : PlannedFrame) : TileHeader where
  geometryEpoch := frame.geometryEpoch
  sequence := sequence
  sourceWidth := frame.sourceWidth
  sourceHeight := frame.sourceHeight
  encodedWidth := frame.image.width
  encodedHeight := frame.image.height
  tileLog2 := e₀.tileLog2
  keyframe := p.keyframe
  atlasColumns := p.columns
  dirtyTiles := p.dirtyTiles
  totalTiles := e₀.tilesOf frame

theorem length_wireHeader (tileLog2 : Nat) (p : PlannedFrame) (sequence : Nat) (frame : CapturedFrame) :
    (TileEncoder.wireHeader tileLog2 p sequence frame).length = tileHeaderLen := by
  simp [TileEncoder.wireHeader, tileHeaderLen]

theorem gridTiles_eq {width height tile : Nat} (h : divCeil width tile * divCeil height tile < 2 ^ 32) :
    gridTiles width height tile = .ok (divCeil width tile * divCeil height tile) := if_pos h

theorem flags_known (keyframe : Bool) : ((if keyframe then flagKeyframe else 0) &&& ~~~knownFlags) = 0 ∧
      ((if keyframe then flagKeyframe else 0) &&& flagKeyframe != 0) = keyframe := by
  cases keyframe <;> decide

/-- The bytes of the header, field by field. -/
structure WireFields (tileLog2 : Nat) (p : PlannedFrame) (sequence : Nat) (frame : CapturedFrame) (payload : List Byte) :
    Prop where
  sequence : slice payload 0 8 = toBeBytes 8 sequence
  sourceWidth : slice payload 8 10 = toBeBytes 2 frame.sourceWidth
  sourceHeight : slice payload 10 12 = toBeBytes 2 frame.sourceHeight
  encodedWidth : slice payload 12 14 = toBeBytes 2 p.encoded.1
  encodedHeight : slice payload 14 16 = toBeBytes 2 p.encoded.2
  tileLog2 : payload.getD 16 0 = BitVec.ofNat 8 tileLog2
  flags : payload.getD 17 0 = if p.keyframe then flagKeyframe else 0
  atlasColumns : slice payload 18 20 = toBeBytes 2 p.columns
  dirtyTiles : slice payload 20 24 = toBeBytes 4 p.dirtyTiles
  geometryEpoch : slice payload 24 32 = toBeBytes 8 frame.geometryEpoch

theorem wireFields (tileLog2 : Nat) (p : PlannedFrame) (sequence : Nat) (frame : CapturedFrame) (rest : List Byte) :
    WireFields tileLog2 p sequence frame (TileEncoder.wireHeader tileLog2 p sequence frame ++ rest) := by
  constructor <;>
    simp only [TileEncoder.wireHeader, append_assoc, slice_append_right, slice_append_self, getD_append_right,
      length_toBeBytes, length_singleton, Nat.le_refl, Nat.reduceLeDiff, Nat.reduceSub]
  all_goals rfl

theorem parse_wireHeader {e₀ : TileEncoder} {frame : CapturedFrame} {sequence : Nat} {p : PlannedFrame} {limits : FrameLimits}
    (hv : frame.Valid limits) (hseq : sequence < 2 ^ 64)
    (hlog : minTileLog2 ≤ e₀.tileLog2 ∧ e₀.tileLog2 ≤ maxTileLog2) (htiles : e₀.tilesOf frame < 2 ^ 32)
    (hdirty : p.dirtyTiles ≤ e₀.tilesOf frame) (hcols : p.columns < 2 ^ 16) (henc : p.encoded = frame.image.dimensions)
    (rest : List Byte) :
    TileHeader.parse (TileEncoder.wireHeader e₀.tileLog2 p sequence frame ++ rest) = .ok (headerOf e₀ frame sequence p) := by
  obtain ⟨-, -, hw, hh, -⟩ := validateDimensions_ok hv.encoded
  obtain ⟨hknown, hkey⟩ := flags_known p.keyframe
  have hlen : ¬ (TileEncoder.wireHeader e₀.tileLog2 p sequence frame ++ rest).length < tileHeaderLen := by
    rw [length_append, length_wireHeader]
    omega
  have hbyte : (BitVec.ofNat 8 e₀.tileLog2).toNat = e₀.tileLog2 := by
    unfold maxTileLog2 at hlog
    rw [BitVec.toNat_ofNat, Nat.mod_eq_of_lt (by omega)]
  have f := wireFields e₀.tileLog2 p sequence frame rest
  generalize TileEncoder.wireHeader e₀.tileLog2 p sequence frame ++ rest = payload at *
  unfold maxDimension at hw hh
  unfold TileHeader.parse
  rw [f.sequence, f.sourceWidth, f.sourceHeight, f.encodedWidth, f.encodedHeight, f.tileLog2, f.flags, f.atlasColumns,
    f.dirtyTiles, f.geometryEpoch, henc, hbyte]
  rw [fromBeBytes_toBeBytes (n := sequence) (by omega), fromBeBytes_toBeBytes (n := frame.sourceWidth) frame.sourceWidth_lt,
    fromBeBytes_toBeBytes (n := frame.sourceHeight) frame.sourceHeight_lt,
    fromBeBytes_toBeBytes (n := frame.image.dimensions.1) (show frame.image.width < _ by omega),
    fromBeBytes_toBeBytes (n := frame.image.dimensions.2) (show frame.image.height < _ by omega),
    fromBeBytes_toBeBytes (n := p.columns) hcols, fromBeBytes_toBeBytes (n := p.dirtyTiles) (by omega),
    fromBeBytes_toBeBytes (n := frame.geometryEpoch) frame.epoch_lt]
  refine unit_bind_eq_ok.2 ⟨rejectIf_eq_ok.2 hlen, ?_⟩
  refine unit_bind_eq_ok.2 ⟨hv.source, unit_bind_eq_ok.2 ⟨hv.encoded, ?_⟩⟩
  refine unit_bind_eq_ok.2 ⟨rejectIf_eq_ok.2 ?_, unit_bind_eq_ok.2 ⟨rejectIf_eq_ok.2 ?_, ?_⟩⟩
  · simp only [Bool.or_eq_true, decide_eq_true_eq, not_or, Nat.not_lt]
    exact hlog
  · exact not_not_intro hknown
  refine bind_eq_ok.2 ⟨_, gridTiles_eq htiles, unit_bind_eq_ok.2 ⟨rejectIf_eq_ok.2 (Nat.not_lt.2 hdirty), ?_⟩⟩
  rw [hkey]
  rfl

/-! ## Patched images -/

/-- `result` shows the frame in the listed tiles and `base` elsewhere. -/
structure Patched (tile : Nat) (dirty : List Nat) (frame base result : RgbImage) : Prop where
  dimensions : result.dimensions = frame.dimensions
  raw : ∀ i, i < frame.width * frame.height * 3 →
    result.raw[i]? = if tileAt frame.width tile i ∈ dirty then frame.raw[i]? else base.raw[i]?

namespace Patched

variable {tile : Nat} {dirty : List Nat} {frame base a b : RgbImage}

theorem ext_of_bytes {frame a b : RgbImage} (ha : a.dimensions = frame.dimensions) (hb : b.dimensions = frame.dimensions)
    (h : ∀ i, i < frame.width * frame.height * 3 → a.raw[i]? = b.raw[i]?) : a = b := by
  obtain ⟨haw, hah⟩ := Prod.mk.inj ha
  obtain ⟨hbw, hbh⟩ := Prod.mk.inj hb
  refine RgbImage.ext_of_raw (haw.trans hbw.symm) (hah.trans hbh.symm) (ext_getElem? fun i => ?_)
  by_cases hi : i < frame.width * frame.height * 3
  · exact h i hi
  · have hla : a.raw.length ≤ i := by rw [a.raw_length, haw, hah]; omega
    have hlb : b.raw.length ≤ i := by rw [b.raw_length, hbw, hbh]; omega
    rw [getElem?_eq_none hla, getElem?_eq_none hlb]

theorem unique (ha : Patched tile dirty frame base a) (hb : Patched tile dirty frame base b) : a = b :=
  ext_of_bytes ha.dimensions hb.dimensions fun i hi => by rw [ha.raw i hi, hb.raw i hi]

theorem eq_frame (ha : Patched tile dirty frame base a) (hw : 0 < frame.width) (ht : 0 < tile)
    (hall : ∀ index, index < divCeil frame.width tile * divCeil frame.height tile → index ∈ dirty) : a = frame :=
  ext_of_bytes ha.dimensions rfl fun i hi => by rw [ha.raw i hi, if_pos (hall _ (tileAt_lt hw ht hi))]

theorem of_rows {writes : List (Nat × List Byte)} (h : TileRows frame.width frame.height tile frame.raw dirty writes)
    (hw : 0 < frame.width) (ht : 0 < tile) (hd : base.dimensions = frame.dimensions) :
    Patched tile dirty frame base (base.blit writes) := by
  obtain ⟨hbw, hbh⟩ := Prod.mk.inj hd
  refine ⟨hd, fun i hi => h.getElem?_blit hw ht ?_ hi⟩
  rw [base.raw_length, hbw, hbh]

theorem nothing (hd : base.dimensions = frame.dimensions) : Patched tile [] frame base base :=
  ⟨hd, fun _ _ => (if_neg not_mem_nil).symm⟩

end Patched

/-! ## Decoding -/

/-- The assumptions on the atlas coder: what was encoded is read back as it was, and an empty body
is no image. -/
structure AtlasCoder.Lossless (coder : AtlasCoder) : Prop where
  rejects_empty : ∀ info, coder.new [] ≠ .ok info
  new_encode : ∀ {quality width height pixels body}, width < 2 ^ 16 → height < 2 ^ 16 →
    pixels.length = width * height * 3 → coder.encode quality width height pixels = .ok body →
      coder.new body = .ok ⟨width, height, true, width * height * 3⟩
  setLimits_encode : ∀ {quality width height pixels body}, width < 2 ^ 16 → height < 2 ^ 16 →
    pixels.length = width * height * 3 → coder.encode quality width height pixels = .ok body →
      ∀ maxAlloc, width * height * 3 ≤ maxAlloc → coder.setLimits body width height maxAlloc = .ok ()
  readImage_encode : ∀ {quality width height pixels body}, width < 2 ^ 16 → height < 2 ^ 16 →
    pixels.length = width * height * 3 → coder.encode quality width height pixels = .ok body →
      coder.readImage body = .ok pixels

theorem decodeAtlas_encode {coder : AtlasCoder} (hl : coder.Lossless) {quality width height : Nat} {pixels body : List Byte}
    (hw : width < 2 ^ 16) (hh : height < 2 ^ 16) (hlen : pixels.length = width * height * 3)
    (h : coder.encode quality width height pixels = .ok body) (atlas : List Byte) (payloadLen : Nat) :
    decodeAtlas coder atlas body width height payloadLen = (pixels, .ok ()) := by
  unfold decodeAtlas
  simp only [hl.new_encode hw hh hlen h, ne_eq, not_true_eq_false, if_false, if_true,
    hl.setLimits_encode hw hh hlen h _ (Nat.le_add_right _ payloadLen), hl.readImage_encode hw hh hlen h]

theorem length_packAtlas (e : TileEncoder) (image : RgbImage) (columns rows : Nat) :
    (e.packAtlas image columns rows).length = columns * e.tile * (rows * e.tile) * 3 := by
  unfold TileEncoder.packAtlas
  simp only [length_blit, length_replicate]
  simp only [Nat.mul_comm, Nat.mul_left_comm]

/-- Encoder and viewer agree between frames. -/
structure InStep (limits : FrameLimits) (tolerance : Nat) (e : TileEncoder) (d : TileDecoder) : Prop where
  canvas : d.canvas = e.reference
  epoch : d.geometryEpoch = e.geometryEpoch
  source : d.source = e.source
  limits : d.frameLimits = limits
  tileLog2 : minTileLog2 ≤ e.tileLog2 ∧ e.tileLog2 ≤ maxTileLog2
  tolerance : e.tolerance = tolerance
  qualities : e.QualitiesFit

section Decode

variable {coder : AtlasCoder} {limits : FrameLimits} {tolerance sequence : Nat} {e₀ e : TileEncoder} {d : TileDecoder}
  {frame : CapturedFrame} {request : TileEncodeRequest} {p : PlannedFrame} {body payload : List Byte}

open TileEncoder TileDecoder

section

variable (h : Encoded coder e₀ frame request sequence p body e payload)
include h

theorem length_dirty_le : e.dirty.length ≤ e₀.tilesOf frame := by
  have hsub : e.dirty ⊆ range (e₀.tilesOf frame) := fun i hi => mem_range.2 (h.owed.lt i hi)
  have hle := (subperm_of_subset h.marks.nodup hsub).length_le
  rwa [length_range] at hle

theorem columns_lt : p.columns < 2 ^ 16 := by
  have hle := h.plan.atlas.width_le
  have htile := Nat.mul_le_mul_left p.columns (tile_pos e₀)
  unfold maxDimension at hle
  omega

theorem bitmapOf_payload : bitmapOf (headerOf e₀ frame sequence p) payload = e.bitmap := by
  have hlen := length_wireHeader e₀.tileLog2 p sequence frame
  have hbits : bitmapLen (headerOf e₀ frame sequence p).totalTiles = e.bitmap.length := h.marks.length.symm
  unfold bitmapOf
  rw [h.payload_eq, slice_append_right (by omega), hlen, hbits, Nat.sub_self, Nat.add_sub_cancel_left, slice_append_self rfl]

end

section

variable (hin : InStep limits tolerance e₀ d)
include hin

theorem parse_payload (hv : frame.Valid limits) (hseq : sequence < 2 ^ 64)
    (h : Encoded coder e₀ frame request sequence p body e payload) :
    TileHeader.parse payload = .ok (headerOf e₀ frame sequence p) := by
  have hdirty : p.dirtyTiles ≤ e₀.tilesOf frame := by
    rw [h.plan.dirtyTiles]
    exact length_dirty_le h
  rw [h.payload_eq]
  exact parse_wireHeader hv hseq hin.tileLog2 h.tiles_lt hdirty (columns_lt h) h.plan.encoded _

theorem accept_eq (hv : frame.Valid limits) (hseq : sequence < 2 ^ 64)
    (hepoch : e₀.geometryEpoch ≤ frame.geometryEpoch) (h : Encoded coder e₀ frame request sequence p body e payload) :
    d.accept payload = .ok (headerOf e₀ frame sequence p) := by
  have hparse := parse_payload hin hv hseq h
  have hlen : payload.length = tileHeaderLen + (bitmapLen (e₀.tilesOf frame) + body.length) := by
    rw [h.payload_eq, length_append, length_append, length_wireHeader, h.marks.length]
  refine bind_eq_ok.2 ⟨_, hparse, unit_bind_eq_ok.2 ⟨by rw [hin.limits]; exact hv.accepted, ?_⟩⟩
  refine unit_bind_eq_ok.2 ⟨rejectIf_eq_ok.2 ?_, unit_bind_eq_ok.2 ⟨rejectIf_eq_ok.2 ?_, unit_bind_eq_ok.2 ⟨rejectIf_eq_ok.2 ?_,
    unit_bind_eq_ok.2 ⟨rejectIf_eq_ok.2 ?_, unit_bind_eq_ok.2 ⟨rejectIf_eq_ok.2 ?_, rfl⟩⟩⟩⟩⟩
  · rw [hin.epoch]
    exact Nat.not_lt.2 hepoch
  · rw [hlen]
    show ¬ tileHeaderLen + (bitmapLen (e₀.tilesOf frame) + body.length) < tileHeaderLen + bitmapLen (e₀.tilesOf frame)
    omega
  · rw [bitmapOf_payload h, h.marks.sum_countOnes h.owed.ascending]
    exact not_not_intro h.plan.dirtyTiles.symm
  · rintro ⟨hk, hne⟩
    refine hne ?_
    show p.dirtyTiles = e₀.tilesOf frame
    rw [h.plan.dirtyTiles, h.owed.all (by rw [← h.plan.keyframe]; exact hk), length_range]
  · -- a delta is only sent for the geometry of the reference
    rintro ⟨hk, hne⟩
    have hdelta : e₀.sendsKeyframe frame request = false := by
      rw [← h.plan.keyframe]
      simpa [headerOf] using hk
    obtain ⟨reference, -, he, -, hs⟩ := needsKeyframe_eq_false (Bool.or_eq_false_iff.1 hdelta).2
    rcases hne with hne | hne
    · exact hne (hin.epoch.trans he)
    · exact hne (hin.source.trans hs)

/-- The canvas a frame is drawn on: the reference, or a new one for a keyframe of another size. -/
theorem adopt_canvas (h : Encoded coder e₀ frame request sequence p body e payload) :
    ∃ base, (d.adopt (headerOf e₀ frame sequence p)).canvas = some base ∧ base.dimensions = frame.image.dimensions ∧
      (e₀.reference = some base ∨ (e₀.sendsKeyframe frame request = true ∧
        ∀ reference, e₀.reference = some reference → reference.dimensions ≠ frame.image.dimensions)) := by
  have hkey := h.plan.keyframe
  unfold TileDecoder.adopt
  simp only [headerOf, hkey, hin.canvas]
  cases hk : e₀.sendsKeyframe frame request with
  | false =>
    obtain ⟨reference, hr, -, hdim, -⟩ := needsKeyframe_eq_false (Bool.or_eq_false_iff.1 hk).2
    exact ⟨reference, by rw [hr]; rfl, hdim, .inl hr⟩
  | true =>
    rw [if_pos rfl]
    cases hr : e₀.reference with
    | none => exact ⟨_, rfl, rfl, .inr ⟨rfl, fun _ hc => by cases hc⟩⟩
    | some reference =>
      simp only
      split
      · rename_i hdim
        exact ⟨reference, rfl, hdim, .inl rfl⟩
      · rename_i hdim
        refine ⟨_, rfl, rfl, .inr ⟨trivial, fun r hc => ?_⟩⟩
        obtain rfl := Option.some.inj hc
        exact hdim

end

theorem atlasSize_eq (h : Encoded coder e₀ frame request sequence p body e payload) (hpos : 0 < e.dirty.length) :
    atlasSize (headerOf e₀ frame sequence p) =
      .ok (p.columns * e₀.tile, divCeil e.dirty.length p.columns * e₀.tile) := by
  obtain ⟨-, hv⟩ := h.plan.atlas.size hpos
  obtain ⟨-, -, hw, hh, -⟩ := validateDimensions_ok hv
  have hcols := h.plan.atlas.columns_pos hpos
  have hle := h.plan.atlas.columns_le
  unfold maxDimension at hw hh
  unfold atlasSize
  simp only [headerOf, h.plan.dirtyTiles]
  refine unit_bind_eq_ok.2 ⟨rejectIf_eq_ok.2 (by omega), unit_bind_eq_ok.2 ⟨rejectIf_eq_ok.2 (by omega), ?_⟩⟩
  refine unit_bind_eq_ok.2 ⟨rejectIf_eq_ok.2 ?_, unit_bind_eq_ok.2 ⟨rejectIf_eq_ok.2 ?_, unit_bind_eq_ok.2 ⟨hv, rfl⟩⟩⟩
  · show ¬ p.columns * e₀.tile ≥ 2 ^ 16
    omega
  · show ¬ divCeil e.dirty.length p.columns * e₀.tile ≥ 2 ^ 16
    omega

theorem draw_eq (hl : coder.Lossless) (hw : 0 < frame.image.width)
    (h : Encoded coder e₀ frame request sequence p body e payload) {base : RgbImage} (hc : d.canvas = some base)
    (hd : base.dimensions = frame.image.dimensions) : ∃ atlas canvas,
      d.draw coder (headerOf e₀ frame sequence p) payload base =
        ({ d with atlas := atlas, canvas := some canvas }, .ok canvas) ∧
      Patched e₀.tile e.dirty frame.image base canvas := by
  obtain ⟨hbw, hbh⟩ := Prod.mk.inj hd
  have hdt : (headerOf e₀ frame sequence p).dirtyTiles = e.dirty.length := h.plan.dirtyTiles
  unfold TileDecoder.draw
  by_cases h0 : e.dirty.length = 0
  · refine ⟨d.atlas, base, ?_, ?_⟩
    · rw [if_pos (hdt.trans h0), ← hc]
    · rw [length_eq_zero_iff.1 h0]
      exact .nothing hd
  · have hpos : 0 < e.dirty.length := Nat.pos_of_ne_zero h0
    have htile : e.tile = e₀.tile := tile_of_model h.model
    have hgrid : e.grid.1 = divCeil frame.image.width e.tile := by rw [h.grid, htile]
    obtain ⟨quality, hbody⟩ := h.body_eq hpos
    obtain ⟨-, hv⟩ := h.plan.atlas.size hpos
    obtain ⟨-, -, haw, hah, -⟩ := validateDimensions_ok hv
    unfold maxDimension at haw hah
    have hlen := length_packAtlas e frame.image p.columns (divCeil e.dirty.length p.columns)
    rw [htile] at hlen
    have hne : body ≠ [] := by
      rintro rfl
      exact hl.rejects_empty _ (hl.new_encode (by omega) (by omega) hlen hbody)
    have hplen : ¬ payload.length ≤ tileHeaderLen + bitmapLen (headerOf e₀ frame sequence p).totalTiles := by
      have := length_pos_iff.2 hne
      rw [h.payload_eq, length_append, length_append, length_wireHeader, h.marks.length]
      show ¬ tileHeaderLen + (bitmapLen (e₀.tilesOf frame) + body.length) ≤ tileHeaderLen + bitmapLen (e₀.tilesOf frame)
      omega
    have hdrop : payload.drop (tileHeaderLen + bitmapLen (headerOf e₀ frame sequence p).totalTiles) = body := by
      rw [h.payload_eq, ← append_assoc, drop_left']
      rw [length_append, length_wireHeader, h.marks.length]
      rfl
    have hscan : (range (headerOf e₀ frame sequence p).totalTiles).filter (bitSet e.bitmap) = e.dirty :=
      h.marks.scan h.owed.ascending (Nat.le_refl _)
    rw [if_neg (by rw [hdt]; exact h0)]
    simp only [atlasSize_eq h hpos, if_neg hplen, hdrop, bitmapOf_payload h,
      decodeAtlas_encode hl (show p.columns * e₀.tile < 2 ^ 16 by omega)
        (show divCeil e.dirty.length p.columns * e₀.tile < 2 ^ 16 by omega) hlen hbody]
    refine ⟨_, _, rfl, ?_⟩
    have hrows := scatterWrites_rows (h.plan.atlas.columns_pos hpos) hgrid hw (tile_pos e) hscan
    rw [htile] at hrows
    unfold scatterAtlas
    rw [hbw, hbh]
    exact .of_rows hrows hw (tile_pos e₀) hd

end Decode

end Jwm.Remote
