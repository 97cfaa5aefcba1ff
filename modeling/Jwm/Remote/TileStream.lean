/-
Streaming tile frames: a host that plans, encodes and then commits or discards frame after frame, and a viewer that decodes
what is delivered.
-/
import Jwm.Remote.TileWire

namespace Jwm.Remote

open List

/-! ## Runs -/

/-- One captured frame and what the sender does with it. -/
structure FrameOp where
  frame : CapturedFrame
  request : TileEncodeRequest
  /-- The arguments of `select_refinement` after the plan. -/
  selections : List (Option (Nat × Nat))
  quality : Nat
  sequence : Nat
  /-- Committed and delivered, or discarded. -/
  deliver : Bool
  sequence_lt : sequence < 2 ^ 64

/-- The host's encoder and the viewer's decoder. -/
structure Stream where
  encoder : TileEncoder
  decoder : TileDecoder

/-- A delivered payload, and both sides after it. -/
structure Delivery where
  op : FrameOp
  payload : List Byte
  outcome : Except String DecodedFrame
  encoder : TileEncoder
  decoder : TileDecoder

section Run

variable (coder : AtlasCoder)

/-- Plan, select and encode a frame; the payload when all of it succeeds. -/
def FrameOp.encode (op : FrameOp) (e : TileEncoder) : TileEncoder × Except String (List Byte) :=
  let e := (e.plan op.frame op.request).1
  let e := op.selections.foldl (fun e refinement => (e.selectRefinement refinement).1) e
  e.encodeInto coder op.sequence op.frame op.quality

def Stream.step (s : Stream) (op : FrameOp) : Stream × Option Delivery :=
  match op.encode coder s.encoder with
  | (e, .error _) => (⟨e.discard, s.decoder⟩, none)
  | (e, .ok payload) =>
    if op.deliver then
      let e := e.commit op.frame
      let (d, outcome) := s.decoder.decodeInto coder payload
      (⟨e, d⟩, some ⟨op, payload, outcome, e, d⟩)
    else (⟨e.discard, s.decoder⟩, none)

def Stream.deliveries : Stream → List FrameOp → List Delivery
  | _, [] => []
  | s, op :: ops => (s.step coder op).2.toList ++ Stream.deliveries (s.step coder op).1 ops

end Run

/-- The viewer took the payload, its canvas is the host's reference, and the canvas is within the
tolerance of the captured frame; it is the frame itself after a keyframe. -/
def Delivery.InStep (tolerance : Nat) (del : Delivery) : Prop :=
  ∃ shown canvas header, del.outcome = .ok shown ∧ del.decoder.canvas = some canvas ∧
    del.encoder.reference = some canvas ∧ TileHeader.parse del.payload = .ok header ∧
    (del.op.request = .keyframe → header.keyframe = true) ∧ canvas.dimensions = del.op.frame.image.dimensions ∧
    (∀ (i : Nat) (a b : Byte), canvas.raw[i]? = some a → del.op.frame.image.raw[i]? = some b → absDiff a b ≤ tolerance) ∧
    (header.keyframe = true → canvas = del.op.frame.image)

/-! ## One frame -/

section Step

variable {coder : AtlasCoder} {limits : FrameLimits} {tolerance sequence : Nat} {e₀ e : TileEncoder} {d : TileDecoder}
  {frame : CapturedFrame} {request : TileEncodeRequest} {p : PlannedFrame} {body payload : List Byte}

open TileEncoder TileDecoder

theorem length_foldl_set {α : Type} (v : α) : ∀ (indices : List Nat) (l : List α),
    (indices.foldl (fun l i => l.set i v) l).length = l.length
  | [], _ => rfl
  | i :: indices, l => by rw [foldl_cons, length_foldl_set v indices, length_set]

theorem commit_spec (hw : 0 < frame.image.width) (h : Encoded coder e₀ frame request sequence p body e payload) :
    ∃ reference, (e.commit frame).reference = some reference ∧
      (∀ base, e₀.reference = some base → base.dimensions = frame.image.dimensions →
        Patched e₀.tile e.dirty frame.image base reference) ∧
      ((∀ base, e₀.reference = some base → base.dimensions ≠ frame.image.dimensions) → reference = frame.image) := by
  have href : e.reference = e₀.reference := congrArg HostModel.reference h.model
  have htile : e.tile = e₀.tile := tile_of_model h.model
  unfold commit
  rw [h.pending, href]
  refine ⟨_, rfl, fun base hb hdim => ?_, fun hnone => ?_⟩
  · have hrows := tileWrites_rows frame.image (tile_pos e₀) hw e.dirty
    simp only [hb, if_pos hdim, h.grid, htile]
    exact .of_rows hrows hw (tile_pos e₀) hdim
  · cases hr : e₀.reference with
    | none => rfl
    | some base => exact if_neg (hnone base hr)

theorem commit_fields (h : e.pending = true) (frame : CapturedFrame) :
    (e.commit frame).geometryEpoch = frame.geometryEpoch ∧
      (e.commit frame).source = (frame.sourceWidth, frame.sourceHeight) ∧ (e.commit frame).tileLog2 = e.tileLog2 ∧
      (e.commit frame).tolerance = e.tolerance ∧ (e.commit frame).qualities.length = e.grid.1 * e.grid.2 := by
  unfold commit
  rw [h]
  refine ⟨rfl, rfl, rfl, rfl, ?_⟩
  show (e.dirty.foldl (fun l i => set l i e.pendingQuality) _).length = _
  rw [length_foldl_set, length_resize]

theorem decode_spec (hl : coder.Lossless) (hin : InStep limits tolerance e₀ d) (hv : frame.Valid limits)
    (hseq : sequence < 2 ^ 64) (hepoch : e₀.geometryEpoch ≤ frame.geometryEpoch)
    (h : Encoded coder e₀ frame request sequence p body e payload) : ∃ shown base canvas,
      (d.decodeInto coder payload).2 = .ok shown ∧ (d.decodeInto coder payload).1.canvas = some canvas ∧
      (d.decodeInto coder payload).1.geometryEpoch = frame.geometryEpoch ∧
      (d.decodeInto coder payload).1.source = (frame.sourceWidth, frame.sourceHeight) ∧
      (d.decodeInto coder payload).1.frameLimits = limits ∧ base.dimensions = frame.image.dimensions ∧
      Patched e₀.tile e.dirty frame.image base canvas ∧
      (e₀.reference = some base ∨ (e₀.sendsKeyframe frame request = true ∧
        ∀ reference, e₀.reference = some reference → reference.dimensions ≠ frame.image.dimensions)) := by
  obtain ⟨hw, -⟩ := validateDimensions_ok hv.encoded
  obtain ⟨base, hbase, hdim, hcase⟩ := adopt_canvas hin h
  obtain ⟨atlas, canvas, hdraw, hpatched⟩ := draw_eq (d := d.adopt (headerOf e₀ frame sequence p)) hl hw h hbase hdim
  have hfilter : (d.adopt (headerOf e₀ frame sequence p)).canvas.filter (fun canvas =>
      decide (canvas.dimensions = (frame.image.width, frame.image.height))) = some base := by
    rw [hbase, Option.filter_some, if_pos (decide_eq_true (show base.dimensions = (frame.image.width, frame.image.height) from hdim))]
  have heq : d.decodeInto coder payload =
      ((({ d.adopt (headerOf e₀ frame sequence p) with atlas := atlas, canvas := some canvas } : TileDecoder).present
          (headerOf e₀ frame sequence p) payload canvas).1,
        .ok (({ d.adopt (headerOf e₀ frame sequence p) with atlas := atlas, canvas := some canvas } : TileDecoder).present
          (headerOf e₀ frame sequence p) payload canvas).2) := by
    unfold decodeInto
    simp only [accept_eq hin hv hseq hepoch h]
    rw [show (d.adopt (headerOf e₀ frame sequence p)).canvas.filter (fun canvas => decide (canvas.dimensions =
      ((headerOf e₀ frame sequence p).encodedWidth, (headerOf e₀ frame sequence p).encodedHeight))) = some base from hfilter]
    simp only [hdraw]
  rw [heq]
  exact ⟨_, base, canvas, rfl, rfl, rfl, rfl, hin.limits, hdim, hpatched, hcase⟩

theorem patched_near {base canvas : RgbImage} (hw : 0 < frame.image.width) (howed : Owed e₀ frame request e.dirty)
    (hp : Patched e₀.tile e.dirty frame.image base canvas) (hk : e₀.sendsKeyframe frame request = false)
    (hb : e₀.reference = some base) {i : Nat} {a b : Byte} (ha : canvas.raw[i]? = some a)
    (hf : frame.image.raw[i]? = some b) : absDiff a b ≤ e₀.tolerance := by
  have hi : i < frame.image.width * frame.image.height * 3 := by
    rw [← frame.image.raw_length]
    exact (List.getElem?_eq_some_iff.1 hf).1
  rw [hp.raw i hi] at ha
  split at ha
  · rw [hf] at ha
    obtain rfl := Option.some.inj ha
    simp [absDiff]
  · rename_i hnot
    have hsame := howed.rest hk base hb _ (tileAt_lt hw (tile_pos e₀) hi) hnot
    rw [absDiff_comm]
    exact absDiff_le_of_not_changed (tile_pos e₀) hw hsame hf ha

section

variable (hl : coder.Lossless) (hin : InStep limits tolerance e₀ d) (hv : frame.Valid limits) (hseq : sequence < 2 ^ 64)
   (hepoch : e₀.geometryEpoch ≤ frame.geometryEpoch) (h : Encoded coder e₀ frame request sequence p body e payload)
include hl hin hv hseq hepoch h

/-- After a delivery both sides hold one canvas, the frame up to the tolerance. -/
theorem deliver_canvas : ∃ canvas,
      (d.decodeInto coder payload).1.canvas = some canvas ∧ (e.commit frame).reference = some canvas ∧
      canvas.dimensions = frame.image.dimensions ∧
      (∀ (i : Nat) (a b : Byte), canvas.raw[i]? = some a → frame.image.raw[i]? = some b → absDiff a b ≤ tolerance) ∧
      (e₀.sendsKeyframe frame request = true → canvas = frame.image) := by
  obtain ⟨hw, -⟩ := validateDimensions_ok hv.encoded
  obtain ⟨reference, href, hpatch, hfresh⟩ := commit_spec hw h
  obtain ⟨-, base, canvas, -, hcanvas, -, -, -, hdim, hdrawn, hcase⟩ := decode_spec hl hin hv hseq hepoch h
  have hall : e₀.sendsKeyframe frame request = true → canvas = frame.image := by
    intro hk
    refine hdrawn.eq_frame hw (tile_pos e₀) fun index hi => ?_
    rw [h.owed.all hk]
    exact mem_range.2 hi
  -- both sides patched the same base, or both hold the whole frame
  have hsame : reference = canvas := by
    rcases hcase with hb | ⟨hk, hne⟩
    · exact (hpatch base hb hdim).unique hdrawn
    · rw [hfresh hne, hall hk]
  refine ⟨canvas, hcanvas, by rw [href, hsame], hdrawn.dimensions, fun i a b ha hf => ?_, hall⟩
  rw [← hin.tolerance]
  cases hk : e₀.sendsKeyframe frame request with
  | true =>
    rw [hall hk] at ha
    obtain rfl := Option.some.inj (ha.symm.trans hf)
    simp [absDiff]
  | false =>
    rcases hcase with hb | ⟨hk', -⟩
    · exact patched_near hw h.owed hdrawn hk hb ha hf
    · rw [hk] at hk'
      cases hk'

theorem deliver_in_step : InStep limits tolerance (e.commit frame) (d.decodeInto coder payload).1 := by
  obtain ⟨canvas, hcanvas, href, hdim, -, -⟩ := deliver_canvas hl hin hv hseq hepoch h
  obtain ⟨-, -, -, -, -, hde, hds, hdl, -⟩ := decode_spec hl hin hv hseq hepoch h
  obtain ⟨hce, hcs, hclog, hctol, hclen⟩ := commit_fields h.pending frame
  have hlog : e.tileLog2 = e₀.tileLog2 := congrArg HostModel.tileLog2 h.model
  have htol : e.tolerance = e₀.tolerance := congrArg HostModel.tolerance h.model
  refine ⟨?_, ?_, ?_, hdl, ?_, ?_, ?_⟩
  · rw [hcanvas, href]
  · rw [hde, hce]
  · rw [hds, hcs]
  · rw [hclog, hlog]
    exact hin.tileLog2
  · rw [hctol, htol]
    exact hin.tolerance
  · intro reference hr
    rw [href] at hr
    obtain rfl := Option.some.inj hr
    obtain ⟨hrw, hrh⟩ := Prod.mk.inj hdim
    have htile : (e.commit frame).tile = e₀.tile := by
      unfold tile
      rw [hclog, hlog]
    rw [hclen, h.grid, htile, hrw, hrh]

end

theorem delivery_in_step (hl : coder.Lossless) (hin : InStep limits tolerance e₀ d) {op : FrameOp}
    (hv : op.frame.Valid limits) (hepoch : e₀.geometryEpoch ≤ op.frame.geometryEpoch)
    (h : Encoded coder e₀ op.frame op.request op.sequence p body e payload) :
    Delivery.InStep tolerance
      ⟨op, payload, (d.decodeInto coder payload).2, e.commit op.frame, (d.decodeInto coder payload).1⟩ := by
  obtain ⟨canvas, hcanvas, href, hdim, hnear, hall⟩ := deliver_canvas hl hin hv op.sequence_lt hepoch h
  obtain ⟨shown, -, -, hok, -⟩ := decode_spec hl hin hv op.sequence_lt hepoch h
  refine ⟨shown, canvas, headerOf e₀ op.frame op.sequence p, hok, hcanvas, href, parse_payload hin hv op.sequence_lt h, ?_,
    hdim, hnear, ?_⟩
  · intro hreq
    show p.keyframe = true
    rw [h.plan.keyframe]
    rw [show op.request = .keyframe from hreq]
    rfl
  · intro hk
    exact hall (by rw [← h.plan.keyframe]; exact hk)

theorem InStep.of_model (hin : InStep limits tolerance e₀ d) (hm : e.model = e₀.model) : InStep limits tolerance e d := by
  have href : e.reference = e₀.reference := congrArg HostModel.reference hm
  have hqual : e.qualities = e₀.qualities := congrArg HostModel.qualities hm
  have hlog : e.tileLog2 = e₀.tileLog2 := congrArg HostModel.tileLog2 hm
  refine ⟨hin.canvas.trans href.symm, hin.epoch.trans (congrArg HostModel.geometryEpoch hm).symm,
    hin.source.trans (congrArg HostModel.source hm).symm, hin.limits, by rw [hlog]; exact hin.tileLog2,
    (congrArg HostModel.tolerance hm).trans hin.tolerance, fun reference hr => ?_⟩
  rw [href] at hr
  rw [hqual, tile_of_model hm]
  exact hin.qualities reference hr

end Step

/-! ## Whole runs -/

section Runs

variable {coder : AtlasCoder} {limits : FrameLimits} {tolerance : Nat}

open TileEncoder

theorem FrameOp.encode_ready (op : FrameOp) {e : TileEncoder} (hq : e.QualitiesFit) (hw : 0 < op.frame.image.width)
    (hh : 0 < op.frame.image.height) : Ready e op.frame op.request
      (op.selections.foldl (fun e refinement => (e.selectRefinement refinement).1) (e.plan op.frame op.request).1) :=
  Ready.selections hq hw hh op.selections _ (Ready.plan hq hw hh)

theorem Ready.model {e₀ e : TileEncoder} {frame : CapturedFrame} {request : TileEncodeRequest}
    (h : Ready e₀ frame request e) : e.model = e₀.model := by
  rcases h with ⟨hm, -⟩ | h
  · exact hm
  · exact h.model

/-- One frame: both sides stay in step, the host's epoch is the old one or the frame's, and what is
delivered is in step. -/
theorem Stream.step_in_step (hl : coder.Lossless) {s : Stream} (hin : InStep limits tolerance s.encoder s.decoder)
    {op : FrameOp} (hv : op.frame.Valid limits) (hepoch : s.encoder.geometryEpoch ≤ op.frame.geometryEpoch) :
    InStep limits tolerance (s.step coder op).1.encoder (s.step coder op).1.decoder ∧
      (s.step coder op).1.encoder.geometryEpoch ≤ op.frame.geometryEpoch ∧
      ∀ del ∈ (s.step coder op).2, del.InStep tolerance := by
  obtain ⟨hw, hh, -⟩ := validateDimensions_ok hv.encoded
  have hready := FrameOp.encode_ready op hin.qualities hw hh
  have hmodel : (op.encode coder s.encoder).1.model = s.encoder.model := encodeInto_model.trans (Ready.model hready)
  -- a discarded frame
  have hdiscard : InStep limits tolerance (op.encode coder s.encoder).1.discard s.decoder ∧
      (op.encode coder s.encoder).1.discard.geometryEpoch ≤ op.frame.geometryEpoch :=
    ⟨hin.of_model hmodel, Nat.le_trans (Nat.le_of_eq (congrArg HostModel.geometryEpoch hmodel)) hepoch⟩
  unfold Stream.step
  split
  · rename_i e error heq
    rw [heq] at hdiscard
    exact ⟨hdiscard.1, hdiscard.2, fun del hdel => by cases hdel⟩
  · rename_i e payload heq
    rw [heq] at hdiscard
    split
    · obtain ⟨p, body, henc⟩ := encode_spec hready heq
      refine ⟨deliver_in_step hl hin hv op.sequence_lt hepoch henc, ?_, fun del hmem => ?_⟩
      · rw [(commit_fields henc.pending op.frame).1]
      · obtain rfl := Option.some.inj hmem
        exact delivery_in_step hl hin hv hepoch henc
    · exact ⟨hdiscard.1, hdiscard.2, fun del hdel => by cases hdel⟩

theorem Stream.deliveries_in_step (hl : coder.Lossless) : ∀ (ops : List FrameOp) (s : Stream),
    InStep limits tolerance s.encoder s.decoder → (∀ op ∈ ops, op.frame.Valid limits) →
    (ops.map (·.frame.geometryEpoch)).Pairwise (· ≤ ·) → (∀ op ∈ ops, s.encoder.geometryEpoch ≤ op.frame.geometryEpoch) →
    ∀ del ∈ s.deliveries coder ops, del.InStep tolerance
  | [], _, _, _, _, _, _, hdel => absurd hdel not_mem_nil
  | op :: ops, s, hin, hv, hs, hle, del, hdel => by
    have hop := mem_cons_self (a := op) (l := ops)
    obtain ⟨hin', he, hout⟩ := Stream.step_in_step hl hin (hv op hop) (hle op hop)
    obtain ⟨hhead, htail⟩ := pairwise_cons.1 hs
    rcases mem_append.1 hdel with hdel | hdel
    · exact hout del (Option.mem_toList.1 hdel)
    · refine Stream.deliveries_in_step hl ops _ hin' (fun o ho => hv o (mem_cons_of_mem _ ho)) htail (fun o ho => ?_)
        del hdel
      exact Nat.le_trans he (hhead _ (List.mem_map_of_mem ho))

theorem InStep.new (limits : FrameLimits) (tileLog2 tolerance : Nat) :
    InStep limits tolerance (withSettings tileLog2 tolerance) { TileDecoder.default with frameLimits := limits } := by
  refine ⟨rfl, rfl, rfl, rfl, ⟨?_, ?_⟩, rfl, fun reference hr => by cases hr⟩
  · exact Nat.le_max_left _ _
  · show max minTileLog2 (min tileLog2 maxTileLog2) ≤ maxTileLog2
    have : minTileLog2 ≤ maxTileLog2 := by decide
    omega

/-- Tile-delta streaming keeps the viewer in step with the host. For every tile size, tolerance and lossless atlas coder and
any captured frames, requests and deliveries, each delivered payload is accepted, the canvas is then the host's reference,
and it is within the tolerance of the captured frame, equal to it after a keyframe. -/
theorem tile_stream_in_step (hl : coder.Lossless) {d : TileDecoder} (hd : TileDecoder.withFrameLimits limits = .ok d)
    (tileLog2 tolerance : Nat) {ops : List FrameOp} (hv : ∀ op ∈ ops, op.frame.Valid limits)
    (hs : (ops.map (·.frame.geometryEpoch)).Pairwise (· ≤ ·)) :
    ∀ del ∈ Stream.deliveries coder ⟨withSettings tileLog2 tolerance, d⟩ ops, del.InStep tolerance := by
  obtain ⟨-, hd⟩ := unit_bind_eq_ok.1 hd
  obtain rfl := pure_eq_ok.1 hd
  exact Stream.deliveries_in_step hl ops _ (.new limits tileLog2 tolerance) hv hs fun _ _ => Nat.zero_le _

/-- A coder that stores the size and the pixels as they are. -/
def rawCoder : AtlasCoder where
  encode _ width height pixels := .ok (toBeBytes 2 width ++ (toBeBytes 2 height ++ pixels))
  new body :=
    if body.length < 4 then .error "unexpected end of file"
    else
      let width := fromBeBytes (slice body 0 2)
      let height := fromBeBytes (slice body 2 4)
      .ok ⟨width, height, true, width * height * 3⟩
  setLimits body maxWidth maxHeight maxAlloc :=
    if fromBeBytes (slice body 0 2) > maxWidth || fromBeBytes (slice body 2 4) > maxHeight || body.length > maxAlloc + 4 then
      .error "image exceeds the limits"
    else .ok ()
  readImage body := .ok (body.drop 4)
  intoRgb8 _ := .ok (RgbImage.new 0 0)

theorem rawCoder_lossless : rawCoder.Lossless := by
  have hwidth : ∀ {width height : Nat} {pixels : List Byte}, width < 2 ^ 16 →
      fromBeBytes (slice (toBeBytes 2 width ++ (toBeBytes 2 height ++ pixels)) 0 2) = width := fun hw => by
    rw [slice_append_self (length_toBeBytes ..).symm, fromBeBytes_toBeBytes hw]
  have hheight : ∀ {width height : Nat} {pixels : List Byte}, height < 2 ^ 16 →
      fromBeBytes (slice (toBeBytes 2 width ++ (toBeBytes 2 height ++ pixels)) 2 4) = height := fun hh => by
    rw [slice_append_right (by rw [length_toBeBytes]), length_toBeBytes,
      slice_append_self (length_toBeBytes ..).symm, fromBeBytes_toBeBytes hh]
  refine ⟨?_, ?_, ?_, ?_⟩
  · intro info h
    cases h
  · rintro _ width height pixels _ hw hh - h
    obtain rfl := Except.ok.inj h
    simp only [rawCoder, hwidth hw, hheight hh]
    rw [if_neg (by simp only [length_append, length_toBeBytes]; omega)]
  · rintro _ width height pixels _ hw hh hlen h maxAlloc hmax
    obtain rfl := Except.ok.inj h
    simp only [rawCoder, hwidth hw, hheight hh]
    rw [if_neg]
    simp only [length_append, length_toBeBytes, Bool.or_eq_true, decide_eq_true_eq]
    omega
  · rintro _ width height pixels _ - - - h
    obtain rfl := Except.ok.inj h
    rfl

def greyPixel (value : Byte) : CapturedFrame where
  geometryEpoch := 1
  image := ⟨1, 1, [value, value, value], rfl⟩
  sourceWidth := 1
  sourceHeight := 1
  epoch_lt := by decide
  sourceWidth_lt := by decide
  sourceHeight_lt := by decide

/-- A first frame, one within the tolerance of it, and a changed one that is first discarded. -/
def greyRun : List FrameOp :=
  [⟨greyPixel 100, .delta, [], 85, 1, true, by decide⟩,
    ⟨greyPixel 103, .keepalive, [none, some (90, 0)], 85, 2, true, by decide⟩,
    ⟨greyPixel 200, .delta, [some (90, 1)], 90, 3, false, by decide⟩,
    ⟨greyPixel 200, .delta, [some (90, 1)], 90, 4, true, by decide⟩]

theorem tile_stream_in_step_greyRun :
    (Stream.deliveries rawCoder ⟨withSettings 3 4, .default⟩ greyRun).length = 3 ∧
      ∀ del ∈ Stream.deliveries rawCoder ⟨withSettings 3 4, .default⟩ greyRun, del.InStep 4 := by
  have hd : TileDecoder.withFrameLimits .default = .ok .default := rfl
  refine ⟨by decide +kernel, tile_stream_in_step rawCoder_lossless hd 3 4 ?_ ?_⟩
  · intro op hop
    simp only [greyRun, mem_cons, not_mem_nil, or_false] at hop
    rcases hop with rfl | rfl | rfl | rfl <;> exact .of_default rfl rfl
  · decide

end Runs

end Jwm.Remote
