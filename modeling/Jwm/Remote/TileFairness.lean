/-
Quality refinement is fair while the screen stands still.
-/
import Jwm.Data.Rounds
import Jwm.Data.Run
import Jwm.Remote.TileOwed

namespace Jwm.Remote

open List

/-! ## The selection -/

def tilesBelow (qualities : List Nat) (target : Nat) : Finset Nat :=
  (Finset.range qualities.length).filter fun index => qualities.getD index 0 < target

theorem range_rotate {start n : Nat} (h : start ≤ n) :
    (range' start (n - start) ++ List.range start).Perm (List.range n) := by
  refine perm_append_comm.trans (List.Perm.of_eq ?_)
  have hjoin := @range_add start (n - start)
  rw [Nat.add_sub_cancel' h] at hjoin
  rw [hjoin, range'_eq_map_range]

/-- The selected tiles are below the target, each listed once, and as many as the limit allows. -/
theorem refinementTiles_spec (qualities : List Nat) (target cursor : Nat) {limit : Nat} (hl : 0 < limit) :
    (refinementTiles qualities target limit cursor).1.Nodup ∧
      (refinementTiles qualities target limit cursor).1.toFinset ⊆ tilesBelow qualities target ∧
      (refinementTiles qualities target limit cursor).1.length = min limit (tilesBelow qualities target).card := by
  unfold refinementTiles
  by_cases hempty : (qualities.isEmpty || decide (limit = 0)) = true
  · rw [if_pos hempty]
    rw [Bool.or_eq_true, decide_eq_true_eq, List.isEmpty_iff] at hempty
    obtain rfl := hempty.resolve_right (by omega)
    exact ⟨nodup_nil, Finset.empty_subset _, (Nat.min_eq_right (Nat.zero_le _)).symm⟩
  rw [if_neg hempty]
  rw [Bool.or_eq_true, decide_eq_true_eq, List.isEmpty_iff, not_or] at hempty
  dsimp only
  have hstart : cursor % qualities.length ≤ qualities.length := Nat.le_of_lt (Nat.mod_lt _ (length_pos_iff.2 hempty.1))
  have hwalk := (range_rotate hstart).filter fun index => decide (qualities.getD index 0 < target)
  generalize (range' (cursor % qualities.length) (qualities.length - cursor % qualities.length) ++
    range (cursor % qualities.length)).filter (fun index => decide (qualities.getD index 0 < target)) = below at hwalk ⊢
  have hnodup : below.Nodup := hwalk.nodup_iff.2 (nodup_range.filter _)
  have hmem : ∀ i, i ∈ below ↔ i ∈ tilesBelow qualities target := by
    intro i
    rw [hwalk.mem_iff, mem_filter, mem_range, decide_eq_true_eq]
    unfold tilesBelow
    rw [Finset.mem_filter, Finset.mem_range]
  have hcard : below.length = (tilesBelow qualities target).card := by
    rw [← toFinset_card_of_nodup hnodup]
    refine congrArg Finset.card (Finset.ext fun i => ?_)
    rw [mem_toFinset, hmem]
  have hsorted := mergeSort_perm (below.take limit) fun a b => decide (a ≤ b)
  refine ⟨hsorted.nodup_iff.2 ((take_sublist limit below).nodup hnodup), fun i hi => ?_, ?_⟩
  · rw [mem_toFinset, hsorted.mem_iff] at hi
    exact (hmem i).1 (mem_of_mem_take hi)
  · rw [hsorted.length_eq, length_take, hcard]

variable {sequence quality tile tolerance : Nat} {current : RgbImage}

namespace TileEncoder

variable {coder : AtlasCoder} {e e' : TileEncoder} {frame : CapturedFrame} {request : TileEncodeRequest}
  {target limit : Nat} {op : FrameOp} {index : Nat}

/-! ## Rounds -/

/-- One round: a frame planned, selected and encoded, then committed or discarded. A committed round
returns the tiles it sent. -/
def round (coder : AtlasCoder) (e : TileEncoder) (op : FrameOp) : TileEncoder × Option (List Nat) :=
  match op.encode coder e with
  | (e, .error _) => (e.discard, none)
  | (e, .ok _) => if op.deliver then (e.commit op.frame, some e.dirty) else (e.discard, none)

/-- A round on the frame that repairs up to `limit` tiles below `target`, in at least that quality. -/
structure Refines (frame : CapturedFrame) (target limit : Nat) (op : FrameOp) : Prop where
  frame : op.frame = frame
  request : op.request ≠ .keyframe
  selections : ∃ earlier, op.selections = earlier ++ [some (target, limit)]
  /-- The quality the atlas is encoded in. -/
  quality : target ≤ max 1 (min op.quality 100)

/-- The reference shows the frame: nothing of it has changed since it was sent. -/
structure Settled (e : TileEncoder) (frame : CapturedFrame) : Prop where
  fit : QualitiesFit e
  current : e.needsKeyframe frame = false
  unchanged : ∀ reference, e.reference = some reference → ∀ index, index < e.tilesOf frame →
    tileChanged frame.image reference (divCeil frame.image.width e.tile) e.tile e.tolerance index = false

theorem Settled.of_model (h : Settled e frame) (hm : e'.model = e.model) : Settled e' frame := by
  obtain ⟨hepoch, hlog2, htolerance, href, hsource, hqualities, -⟩ := HostModel.mk.inj hm
  have htile : e'.tile = e.tile := tile_of_model hm
  refine ⟨h.fit.of_model hm, ?_, ?_⟩
  · have hcurrent := h.current
    unfold needsKeyframe at hcurrent ⊢
    rw [href, hepoch, hsource]
    exact hcurrent
  · unfold tilesOf
    rw [href, htile, htolerance]
    exact h.unchanged

theorem Settled.delta (h : Settled e frame) (hrequest : request ≠ .keyframe) : e.sendsKeyframe frame request = false := by
  unfold sendsKeyframe
  rw [h.current, Bool.or_false]
  exact beq_false_of_ne hrequest

theorem Settled.owes_iff (h : Settled e frame) (hrequest : request ≠ .keyframe) (hi : index < e.tilesOf frame) :
    e.owes frame request (some (target, limit)) index = true ↔
      index ∈ (refinementTiles e.qualities target limit e.refinementCursor).1 := by
  unfold owes
  rw [h.delta hrequest, Bool.false_or, Option.any_some, Bool.or_eq_true, decide_eq_true_eq]
  refine or_iff_right ?_
  cases href : e.reference with
  | none => exact Bool.false_ne_true
  | some reference =>
    rw [Option.any_some, h.unchanged reference href index hi]
    exact Bool.false_ne_true

/-! ## What a round sends -/

theorem selectRefinement_dirty {detected : DetectedFrame} (h : e.detected = some detected) (refinement : Option (Nat × Nat)) :
    (e.selectRefinement refinement).1.dirty = (e.selection detected.keyframe refinement).2.2 := by
  unfold selectRefinement
  rw [h]
  dsimp only
  split
  · rfl
  split
  · rfl
  split
  · rfl
  · rfl

/-- An encode sends the tiles selected, in the quality it is asked for within 1 and 100. -/
theorem encodeInto_sent {payload : List Byte} (h : e.encodeInto coder sequence frame quality = (e', .ok payload)) :
    e'.dirty = e.dirty ∧ e'.pendingQuality = max 1 (min quality 100) := by
  replace h := encodeInto_eq_ok h
  unfold encodeInner at h
  dsimp only at h
  split at h
  · cases (Prod.mk.inj h).2
  split at h
  · cases (Prod.mk.inj h).2
  split at h
  · cases (Prod.mk.inj h).2
  split at h
  · rw [← (Prod.mk.inj h).1]
    exact ⟨rfl, rfl⟩
  split at h
  · cases (Prod.mk.inj h).2
  split at h
  · cases (Prod.mk.inj h).2
  · rw [← (Prod.mk.inj h).1]
    exact ⟨rfl, rfl⟩

theorem detect_ok_pos (h : (e.detect frame request).2 = .ok ()) : 0 < frame.image.width ∧ 0 < frame.image.height := by
  unfold detect at h
  split at h
  · cases h
  · rename_i totalTiles htiles
    simp only [detectTiles, unit_bind_eq_ok, rejectIf_eq_ok] at htiles
    obtain ⟨-, -, -, hv, -⟩ := htiles
    obtain ⟨hw, hh, -⟩ := validateDimensions_ok hv
    exact ⟨hw, hh⟩

theorem foldl_selectRefinement_undetected : ∀ (refinements : List (Option (Nat × Nat))) {e : TileEncoder}, e.detected = none →
    refinements.foldl (fun e refinement => (e.selectRefinement refinement).1) e = e
  | [], _, _ => rfl
  | refinement :: refinements, e, h => by
    have hsame : (e.selectRefinement refinement).1 = e := by
      unfold selectRefinement
      rw [h]
    rw [foldl_cons, hsame]
    exact foldl_selectRefinement_undetected refinements h

theorem encodeInto_unplanned {payload : List Byte} (h : e.planned = none) :
    e.encodeInto coder sequence frame quality ≠ (e', .ok payload) := by
  intro heq
  replace heq := encodeInto_eq_ok heq
  simp only [h] at heq
  cases (Prod.mk.inj heq).2

/-- What a refining round puts on the wire. -/
structure Sends (coder : AtlasCoder) (e : TileEncoder) (frame : CapturedFrame) (target limit : Nat) (op : FrameOp)
    (e' : TileEncoder) (payload : List Byte) : Prop where
  width : 0 < frame.image.width
  encoded : ∃ p body, Encoded coder e frame op.request op.sequence p body e' payload
  quality : target ≤ e'.pendingQuality
  dirty : ∀ index, index ∈ e'.dirty ↔ index ∈ (refinementTiles e.qualities target limit e.refinementCursor).1

theorem Refines.sends (h : Refines frame target limit op) (hs : Settled e frame) {payload : List Byte}
    (henc : op.encode coder e = (e', .ok payload)) : Sends coder e frame target limit op e' payload := by
  obtain ⟨rfl, hrequest, ⟨earlier, hselections⟩, hquality⟩ := h
  have hfit := hs.fit
  have hready := henc
  unfold FrameOp.encode at henc
  dsimp only at henc
  cases hdetect : (e.detect op.frame op.request).2 with
  | error error =>
    -- a frame that is not detected is not encoded
    rcases detect_spec e op.frame op.request with ⟨_, _, -, hd, hp⟩ | ⟨hok, -⟩
    · have hplan : (e.plan op.frame op.request).1 = (e.detect op.frame op.request).1 := by
        unfold TileEncoder.plan
        split
        · rename_i heq
          rw [heq]
        · rename_i heq
          rw [heq] at hdetect
          cases hdetect
      rw [hplan, foldl_selectRefinement_undetected _ hd] at henc
      exact absurd henc (encodeInto_unplanned hp)
    · rw [hok] at hdetect
      cases hdetect
  | ok u =>
    obtain ⟨hw, hh⟩ := detect_ok_pos hdetect
    have hscan := (detect_ok_scanned hdetect).select hfit hw hh none
    have hplan : (e.plan op.frame op.request).1 = ((e.detect op.frame op.request).1.selectRefinement none).1 := by
      unfold TileEncoder.plan
      split
      · rename_i heq
        rw [heq] at hdetect
        cases hdetect
      · rename_i heq
        rw [heq]
    have hready := FrameOp.encode_ready op hfit hw hh
    rw [hplan] at henc hready
    rw [hselections, foldl_append, foldl_cons, foldl_nil] at henc hready
    replace hscan := Scanned.selections hfit hw hh earlier hscan
    generalize earlier.foldl (fun (e : TileEncoder) refinement => (e.selectRefinement refinement).1) _ = selected at henc hready hscan
    obtain ⟨p, body, hencoded⟩ := encode_spec hready henc
    obtain ⟨hdirty, hpending⟩ := encodeInto_sent henc
    refine ⟨hw, ⟨p, body, hencoded⟩, by rw [hpending]; exact hquality, fun index => ?_⟩
    rw [hdirty, selectRefinement_dirty hscan.detected, mem_selection hfit hscan]
    refine ⟨fun ⟨hi, howes⟩ => (hs.owes_iff hrequest hi).1 howes, fun hmem => ?_⟩
    have hi : index < e.tilesOf op.frame := by
      rw [← qualities_length_of_delta hfit (hs.delta hrequest)]
      exact refinementTiles_lt index hmem
    exact ⟨hi, (hs.owes_iff hrequest hi).2 hmem⟩

/-! ## What a commit leaves -/

theorem getD_foldl_set (v : Nat) : ∀ (indices : List Nat) (l : List Nat) {i : Nat}, i < l.length →
    (indices.foldl (fun l i => l.set i v) l).getD i 0 = if i ∈ indices then v else l.getD i 0
  | [], _, _, _ => (if_neg not_mem_nil).symm
  | j :: indices, l, i, hi => by
    rw [foldl_cons, getD_foldl_set v indices _ (by rw [length_set]; exact hi)]
    by_cases hmem : i ∈ indices
    · rw [if_pos hmem, if_pos (mem_cons_of_mem _ hmem)]
    · rw [if_neg hmem]
      by_cases hij : j = i
      · subst hij
        rw [if_pos (mem_cons_self ..), getD_eq_getElem?_getD, List.getElem?_set_self hi, Option.getD_some]
      · rw [if_neg (by rw [mem_cons]; rintro (rfl | h) <;> contradiction), getD_eq_getElem?_getD,
          List.getElem?_set_ne hij, ← getD_eq_getElem?_getD]

theorem commit_qualities (hp : e.pending = true) (hlen : e.qualities.length = e.grid.1 * e.grid.2) :
    (e.commit frame).qualities = e.dirty.foldl (fun qualities index => qualities.set index e.pendingQuality) e.qualities := by
  unfold commit
  rw [if_neg (by rw [hp]; exact Bool.false_ne_true)]
  unfold resize
  rw [take_of_length_le (Nat.le_of_eq hlen), hlen, Nat.sub_self, replicate_zero, append_nil]

theorem tileChanged_congr {reference reference' : RgbImage}
    (hd : reference.dimensions = current.dimensions) (hd' : reference'.dimensions = current.dimensions)
    (hw : 0 < current.width)
    (h : ∀ i, i < current.width * current.height * 3 → tileAt current.width tile i = index →
      reference'.raw[i]? = reference.raw[i]?) :
    tileChanged current reference' (divCeil current.width tile) tile tolerance index =
      tileChanged current reference (divCeil current.width tile) tile tolerance index := by
  obtain ⟨hwidth, hheight⟩ := Prod.mk.inj hd
  obtain ⟨hwidth', hheight'⟩ := Prod.mk.inj hd'
  have hrows : ∀ y, y ∈ range' (tileTop current.width tile index)
        (tileBottom current.width current.height tile index - tileTop current.width tile index) →
      slice reference'.raw (rowOffset current.width tile index y)
          (rowOffset current.width tile index y + tileBytes current.width tile index) =
        slice reference.raw (rowOffset current.width tile index y)
          (rowOffset current.width tile index y + tileBytes current.width tile index) := by
    intro y hy
    obtain ⟨htop, hbottom⟩ := mem_rows.1 hy
    rw [← hwidth, ← hheight] at h hbottom
    rw [← hwidth] at htop ⊢
    exact tileRow_congr (hwidth'.trans hwidth.symm) (hheight'.trans hheight.symm) (by rw [hwidth]; exact hw) h htop hbottom
  unfold tileChanged
  rw [Bool.eq_iff_iff]
  dsimp only
  rw [any_eq_true, any_eq_true]
  refine exists_congr fun y => and_congr_right fun hy => ?_
  have hrow := hrows y hy
  unfold rowOffset tileBytes tileLeft at hrow
  unfold tileBounds
  rw [hrow]

theorem tileChanged_self {gridW : Nat} : tileChanged current current gridW tile tolerance index = false := by
  unfold tileChanged
  dsimp only
  refine any_eq_false.2 fun y _ => ?_
  rw [bne_self_eq_false, Bool.false_and]
  exact Bool.false_ne_true

theorem Encoded.commit_settled {p : PlannedFrame} {body payload : List Byte} (hw : 0 < frame.image.width)
    (h : Encoded coder e frame request sequence p body e' payload) : Settled (e'.commit frame) frame := by
  obtain ⟨reference, href, hpatch, hfull⟩ := commit_spec hw h
  obtain ⟨hepoch, hsource, hlog2, htolerance, hlen⟩ := commit_fields h.pending frame
  have htile : (e'.commit frame).tile = e.tile := (congrArg (fun k => 1 <<< k) hlog2).trans (tile_of_model h.model)
  have htol : (e'.commit frame).tolerance = e.tolerance := htolerance.trans (congrArg HostModel.tolerance h.model)
  -- the new reference has the frame's size, and its tiles that were not sent were the frame's already
  have hshown : reference.dimensions = frame.image.dimensions ∧ ∀ index, index < e.tilesOf frame →
      tileChanged frame.image reference (divCeil frame.image.width e.tile) e.tile e.tolerance index = false := by
    by_cases hbase : ∃ base, e.reference = some base ∧ base.dimensions = frame.image.dimensions
    · obtain ⟨base, hbase, hdim⟩ := hbase
      have hpatched := hpatch base hbase hdim
      refine ⟨hpatched.dimensions, fun index hi => ?_⟩
      by_cases hmem : index ∈ e'.dirty
      · refine (tileChanged_congr rfl hpatched.dimensions hw fun i hi hat => ?_).trans tileChanged_self
        rw [hpatched.raw i hi, if_pos (by rw [hat]; exact hmem)]
      · have hdelta : e.sendsKeyframe frame request = false := by
          rw [← Bool.not_eq_true]
          intro hk
          rw [h.owed.all hk, mem_range] at hmem
          exact hmem hi
        refine (tileChanged_congr hdim hpatched.dimensions hw fun i hi hat => ?_).trans
          (h.owed.rest hdelta base hbase index hi hmem)
        rw [hpatched.raw i hi, if_neg (by rw [hat]; exact hmem)]
    · rw [hfull fun base hb hdim => hbase ⟨base, hb, hdim⟩]
      exact ⟨rfl, fun _ _ => tileChanged_self⟩
  obtain ⟨hdim, hunchanged⟩ := hshown
  obtain ⟨hwidth, hheight⟩ := Prod.mk.inj hdim
  refine ⟨fun other hother => ?_, ?_, fun other hother index hi => ?_⟩
  · obtain rfl := Option.some.inj (href.symm.trans hother)
    rw [hlen, htile, h.grid, hwidth, hheight]
  · unfold needsKeyframe
    rw [href, hepoch, hsource]
    dsimp only
    rw [hdim]
    simp only [bne_self_eq_false, Bool.or_self]
  · obtain rfl := Option.some.inj (href.symm.trans hother)
    unfold tilesOf at hi
    rw [htile] at hi ⊢
    rw [htol]
    exact hunchanged index hi

section Sends

variable {payload : List Byte}

section

variable (h : Sends coder e frame target limit op e' payload)
include h

theorem Sends.commit_settled : Settled (e'.commit frame) frame := by
  obtain ⟨p, body, henc⟩ := h.encoded
  exact henc.commit_settled h.width

theorem Sends.tilesBelow_commit (hs : Settled e frame) (hrequest : op.request ≠ .keyframe) :
    tilesBelow (e'.commit frame).qualities target = tilesBelow e.qualities target \ e'.dirty.toFinset := by
  obtain ⟨p, body, henc⟩ := h.encoded
  have hqual : e'.qualities = e.qualities := congrArg HostModel.qualities henc.model
  have hlen : e'.qualities.length = e'.grid.1 * e'.grid.2 := by
    rw [hqual, qualities_length_of_delta hs.fit (hs.delta hrequest), henc.grid]
    rfl
  rw [commit_qualities henc.pending hlen, hqual]
  ext i
  unfold tilesBelow
  rw [Finset.mem_sdiff, Finset.mem_filter, Finset.mem_filter, Finset.mem_range, Finset.mem_range, length_foldl_set,
    mem_toFinset, and_assoc]
  refine and_congr_right fun hi => ?_
  rw [getD_foldl_set _ _ _ hi]
  by_cases hmem : i ∈ e'.dirty
  · rw [if_pos hmem]
    exact iff_of_false (Nat.not_lt.2 h.quality) fun hboth => hboth.2 hmem
  · rw [if_neg hmem]
    exact (and_iff_left hmem).symm

theorem Sends.pays (hl : 0 < limit) : e'.dirty.toFinset ⊆ tilesBelow e.qualities target ∧
      e'.dirty.toFinset.card = min limit (tilesBelow e.qualities target).card := by
  obtain ⟨hnodup, hsub, hlen⟩ := refinementTiles_spec e.qualities target e.refinementCursor hl
  have hsame : e'.dirty.toFinset = (refinementTiles e.qualities target limit e.refinementCursor).1.toFinset := by
    ext i
    rw [mem_toFinset, mem_toFinset]
    exact h.dirty i
  rw [hsame, toFinset_card_of_nodup hnodup]
  exact ⟨hsub, hlen⟩

end

end Sends

/-! ## Runs of rounds -/

theorem plan_model (e : TileEncoder) (frame : CapturedFrame) (request : TileEncodeRequest) :
    (e.plan frame request).1.model = e.model := by
  have hdetect : (e.detect frame request).1.model = e.model := by
    rcases detect_spec e frame request with ⟨_, -, hm, -⟩ | ⟨-, hdet⟩
    · exact hm
    · exact hdet.model
  unfold TileEncoder.plan
  generalize e.detect frame request = r at hdetect
  obtain ⟨e', outcome⟩ := r
  cases outcome with
  | error error => exact hdetect
  | ok u => exact (selectRefinement_idles e' none).model.trans hdetect

theorem foldl_selectRefinement_model : ∀ (refinements : List (Option (Nat × Nat))) (e : TileEncoder),
    (refinements.foldl (fun e refinement => (e.selectRefinement refinement).1) e).model = e.model
  | [], _ => rfl
  | refinement :: refinements, e => by
    rw [foldl_cons, foldl_selectRefinement_model refinements]
    exact (selectRefinement_idles e refinement).model

theorem encode_model (coder : AtlasCoder) (e : TileEncoder) (op : FrameOp) : (op.encode coder e).1.model = e.model :=
  encodeInto_model.trans ((foldl_selectRefinement_model _ _).trans (plan_model e op.frame op.request))

theorem round_cases (coder : AtlasCoder) (e : TileEncoder) (op : FrameOp) :
    ((round coder e op).2 = none ∧ (round coder e op).1.model = e.model) ∨
      ∃ e' payload, op.encode coder e = (e', .ok payload) ∧ round coder e op = (e'.commit op.frame, some e'.dirty) := by
  have hmodel := encode_model coder e op
  unfold round
  generalize op.encode coder e = r at hmodel ⊢
  obtain ⟨e', outcome⟩ := r
  cases outcome with
  | error error => exact .inl ⟨rfl, hmodel⟩
  | ok payload =>
    cases hdeliver : op.deliver with
    | false => exact .inl ⟨rfl, hmodel⟩
    | true => exact .inr ⟨e', payload, rfl, rfl⟩

/-- Whatever an encode of a frame with pixels sent, its commit makes the frame settled. -/
theorem encode_commit_settled (hfit : QualitiesFit e) (hw : 0 < op.frame.image.width) (hh : 0 < op.frame.image.height)
    {payload : List Byte} (henc : op.encode coder e = (e', .ok payload)) : Settled (e'.commit op.frame) op.frame := by
  obtain ⟨p, body, hencoded⟩ := encode_spec (op.encode_ready hfit hw hh) henc
  exact hencoded.commit_settled hw

def sentTiles (coder : AtlasCoder) (e : TileEncoder) (ops : List FrameOp) : List (List Nat) :=
  (answers (round coder) e ops).filterMap id

theorem round_settled (coder : AtlasCoder) (hs : Settled e frame) (h : Refines frame target limit op) :
    Settled (round coder e op).1 frame := by
  rcases round_cases coder e op with ⟨-, hmodel⟩ | ⟨e', payload, henc, hround⟩
  · exact hs.of_model hmodel
  · rw [hround, h.frame]
    exact (h.sends hs henc).commit_settled

theorem sentTiles_repays (coder : AtlasCoder) (hl : 0 < limit) : ∀ {ops : List FrameOp} {e : TileEncoder}, Settled e frame →
    (∀ op ∈ ops, Refines frame target limit op) →
    Repays limit (tilesBelow e.qualities target) ((sentTiles coder e ops).map toFinset)
  | [], _, _, _ => .nil _
  | op :: ops, e, hs, h => by
    have hop := h op (mem_cons_self ..)
    have hrest := sentTiles_repays coder hl (round_settled coder hs hop) fun op' hin => h op' (mem_cons_of_mem _ hin)
    unfold sentTiles answers at hrest ⊢
    rw [trace, map_cons]
    rcases round_cases coder e op with ⟨hnone, hmodel⟩ | ⟨e', payload, henc, hround⟩
    · rw [hnone, filterMap_cons_none rfl]
      rwa [show (round coder e op).1.qualities = e.qualities from congrArg HostModel.qualities hmodel] at hrest
    · have hsends := hop.sends hs henc
      obtain ⟨hsub, hcard⟩ := hsends.pays hl
      rw [hround] at hrest ⊢
      rw [hop.frame, hsends.tilesBelow_commit hs hop.request] at hrest
      rw [hop.frame, filterMap_cons_some (f := id) rfl, map_cons]
      exact .cons hsub hcard hrest

/-- A round of a run: the tiles it sent were below the target; a discarded one leaves the qualities and the cursor. -/
def RoundFair (target : Nat) (coder : AtlasCoder) (e : TileEncoder) (op : FrameOp) : Prop :=
  (∀ sent, (round coder e op).2 = some sent → ∀ index ∈ sent, index ∈ tilesBelow e.qualities target) ∧
    ((round coder e op).2 = none →
      (round coder e op).1.qualities = e.qualities ∧ (round coder e op).1.refinementCursor = e.refinementCursor)

theorem round_fair (hl : 0 < limit) (hs : Settled e frame) (h : Refines frame target limit op) :
    RoundFair target coder e op := by
  rcases round_cases coder e op with ⟨hnone, hmodel⟩ | ⟨e', payload, henc, hround⟩
  · refine ⟨fun sent hsent => ?_, fun _ => ⟨congrArg HostModel.qualities hmodel, congrArg HostModel.refinementCursor hmodel⟩⟩
    rw [hnone] at hsent
    cases hsent
  · refine ⟨fun sent hsent index hindex => ?_, fun hnone => ?_⟩
    · rw [hround] at hsent
      obtain rfl := Option.some.inj hsent
      exact ((h.sends hs henc).pays hl).1 (mem_toFinset.2 hindex)
    · rw [hround] at hnone
      cases hnone

/-- On a still screen every tile below the target quality is sent again within the first committed
rounds, no other tile ever is, and a discarded round changes neither the qualities nor the cursor. -/
theorem refinement_fair (coder : AtlasCoder) {e : TileEncoder} {frame : CapturedFrame} (hs : Settled e frame)
    {target limit : Nat} (hl : 0 < limit) {ops : List FrameOp} (hops : ∀ op ∈ ops, Refines frame target limit op) :
    (divCeil (tilesBelow e.qualities target).card limit ≤ (sentTiles coder e ops).length →
      ∀ index ∈ tilesBelow e.qualities target,
        ∃ sent ∈ (sentTiles coder e ops).take (divCeil (tilesBelow e.qualities target).card limit), index ∈ sent) ∧
      (∀ sent ∈ sentTiles coder e ops, ∀ index ∈ sent, index ∈ tilesBelow e.qualities target) ∧
      Along (RoundFair target coder) (round coder) e ops := by
  have hrepays := sentTiles_repays coder hl hs hops
  refine ⟨fun hlen index hindex => ?_, fun sent hsent index hindex => ?_, ?_⟩
  · have hcover : (tilesBelow e.qualities target).card ≤ divCeil (tilesBelow e.qualities target).card limit * limit := by
      rw [Nat.mul_comm]
      exact le_mul_divCeil hl
    obtain ⟨paid, hpaid, hmem⟩ := hrepays.within hcover (by rw [length_map]; exact hlen) index hindex
    rw [← map_take] at hpaid
    obtain ⟨sent, hsent, rfl⟩ := List.mem_map.1 hpaid
    exact ⟨sent, hsent, List.mem_toFinset.1 hmem⟩
  · exact hrepays.subset _ (List.mem_map_of_mem hsent) (List.mem_toFinset.2 hindex)
  · clear hrepays
    induction ops generalizing e with
    | nil => trivial
    | cons op ops ih =>
      have hop := hops op (mem_cons_self ..)
      exact ⟨round_fair hl hs hop, ih (round_settled coder hs hop) fun op' h => hops op' (mem_cons_of_mem _ h)⟩

theorem fourth_sequence : 4 < 2 ^ 64 := by decide

/-- Two tiles. -/
def greyRow : CapturedFrame :=
  { greyPixel 100 with image := ⟨9, 1, replicate 27 100, rfl⟩, sourceWidth := 9, sourceWidth_lt := by decide }

def greyDraft : TileEncoder := (round rawCoder (withSettings 3 4) ⟨greyRow, .delta, [], 50, 1, true, firstEpoch_lt⟩).1

/-- A tile a round; the first round is discarded. -/
def greyRepairs : List FrameOp :=
  [⟨greyRow, .delta, [some (85, 1)], 85, 4, false, fourth_sequence⟩, ⟨greyRow, .delta, [some (85, 1)], 85, 4, true, fourth_sequence⟩,
    ⟨greyRow, .keepalive, [some (85, 1)], 90, 4, true, fourth_sequence⟩]

theorem greyDraft_settled : Settled greyDraft greyRow := by
  have hfit : QualitiesFit (withSettings 3 4) := by
    intro _ h
    cases h
  unfold greyDraft
  rcases round_cases rawCoder (withSettings 3 4) ⟨greyRow, .delta, [], 50, 1, true, firstEpoch_lt⟩ with
    ⟨hnone, -⟩ | ⟨e', payload, henc, hround⟩
  · have hsent : (round rawCoder (withSettings 3 4) ⟨greyRow, .delta, [], 50, 1, true, firstEpoch_lt⟩).2 = some [0, 1] := by
      decide +kernel
    rw [hsent] at hnone
    cases hnone
  · rw [hround]
    exact encode_commit_settled hfit (by decide) Nat.one_pos henc

theorem greyRepairs_refine : ∀ op ∈ greyRepairs, Refines greyRow 85 1 op := by
  intro op hop
  simp only [greyRepairs, mem_cons, not_mem_nil, or_false] at hop
  rcases hop with rfl | rfl | rfl <;> exact ⟨rfl, by decide, ⟨[], rfl⟩, by decide⟩

theorem refinement_fair_row :
    tilesBelow greyDraft.qualities 85 = {0, 1} ∧ sentTiles rawCoder greyDraft greyRepairs = [[0], [1]] ∧
      ∀ index ∈ tilesBelow greyDraft.qualities 85, ∃ sent ∈ sentTiles rawCoder greyDraft greyRepairs, index ∈ sent := by
  have hbelow : tilesBelow greyDraft.qualities 85 = {0, 1} := by decide +kernel
  have hsent : sentTiles rawCoder greyDraft greyRepairs = [[0], [1]] := by decide +kernel
  have hfair := refinement_fair rawCoder greyDraft_settled Nat.one_pos greyRepairs_refine
  refine ⟨hbelow, hsent, fun index hindex => ?_⟩
  obtain ⟨sent, hmem, hindex⟩ := hfair.1 (by rw [hbelow, hsent]; decide) index hindex
  exact ⟨sent, mem_of_mem_take hmem, hindex⟩

end TileEncoder

end Jwm.Remote
