/-
Planning a tile frame: what `detect` and any number of `select_refinement` calls leave for the
encode. The marked tiles are listed in raster order, a keyframe marks every tile, and a delta leaves
a tile out only when its pixels are within the tolerance of the reference.
-/
import Jwm.Remote.TileGrid

namespace Jwm.Remote

open List

/-! ## Marked tiles -/

/-- The bitmap of `n` tiles marks exactly the listed ones. -/
structure Marks (n : Nat) (bitmap : List Byte) (dirty : List Nat) : Prop where
  length : bitmap.length = bitmapLen n
  lt : ∀ i ∈ dirty, i < n
  nodup : dirty.Nodup
  bit : ∀ i, bitSet bitmap i = decide (i ∈ dirty)

variable {n : Nat}

variable {i tile : Nat} {reference : RgbImage}

theorem div_lt_bitmapLen (h : i < n) : i / 8 < bitmapLen n := div_lt_divCeil (by decide) h

variable {bitmap : List Byte} {dirty : List Nat}

theorem Marks.mark_all (hlen : bitmap.length = bitmapLen n)
    (hlt : ∀ i ∈ dirty, i < n) (hnd : dirty.Nodup) : Marks n (dirty.foldl markBit (bitmap.map fun _ => 0)) dirty := by
  have hzero : (bitmap.map fun _ => (0 : Byte)) = replicate (bitmapLen n) 0 := by
    rw [map_const', hlen]
  refine ⟨by rw [length_foldl_markBit, length_map, hlen], hlt, hnd, fun i => ?_⟩
  rw [hzero, bitSet_foldl_markBit, bitSet_replicate_zero, Bool.or_false]
  intro k hk
  rw [length_replicate]
  exact div_lt_bitmapLen (hlt k hk)

theorem Marks.push (h : Marks n bitmap dirty) (hi : i < n)
    (hnew : bitSet bitmap i = false) : Marks n (markBit bitmap i) (dirty ++ [i]) := by
  have hmem : i ∉ dirty := by simpa [h.bit] using hnew
  refine ⟨by rw [length_markBit, h.length], ?_, ?_, fun j => ?_⟩
  · intro j hj
    rcases mem_append.1 hj with hj | hj
    · exact h.lt j hj
    · rw [mem_singleton.1 hj]
      exact hi
  · refine nodup_append.2 ⟨h.nodup, nodup_singleton i, ?_⟩
    rintro j hj k hk rfl
    exact hmem (by rw [← mem_singleton.1 hk]; exact hj)
  · rw [bitSet_markBit (by rw [h.length]; exact div_lt_bitmapLen hi), h.bit]
    by_cases hj : j = i <;> simp [hj]

theorem Marks.addRepairs : ∀ {indices : List Nat} {bitmap : List Byte} {dirty : List Nat},
    Marks n bitmap dirty → (∀ i ∈ indices, i < n) →
    Marks n (addRepairs indices bitmap dirty).1 (addRepairs indices bitmap dirty).2 ∧
      dirty ⊆ (Remote.addRepairs indices bitmap dirty).2
  | [], _, _, h, _ => ⟨h, fun _ hi => hi⟩
  | i :: indices, bitmap, dirty, h, hlt => by
    have hrest : ∀ k ∈ indices, k < n := fun k hk => hlt k (mem_cons_of_mem _ hk)
    cases hbit : bitSet bitmap i with
    | true =>
      have hstep : Remote.addRepairs (i :: indices) bitmap dirty = Remote.addRepairs indices bitmap dirty := by
        simp [Remote.addRepairs, hbit]
      rw [hstep]
      exact Marks.addRepairs h hrest
    | false =>
      have hstep : Remote.addRepairs (i :: indices) bitmap dirty =
          Remote.addRepairs indices (markBit bitmap i) (dirty ++ [i]) := by
        simp [Remote.addRepairs, hbit]
      rw [hstep]
      obtain ⟨hm, hsub⟩ := Marks.addRepairs (h.push (hlt i (mem_cons_self ..)) hbit) hrest
      exact ⟨hm, fun k hk => hsub (mem_append_left _ hk)⟩

theorem Marks.sort (h : Marks n bitmap dirty) : Marks n bitmap dirty.mergeSort := by
  have hperm := mergeSort_perm dirty (· ≤ ·)
  refine ⟨h.length, fun i hi => h.lt i (hperm.mem_iff.1 hi), hperm.nodup_iff.2 h.nodup, fun i => ?_⟩
  rw [h.bit]
  exact decide_eq_decide.2 hperm.mem_iff.symm

theorem pairwise_lt_mergeSort {l : List Nat} (h : l.Nodup) : l.mergeSort.Pairwise (· < ·) := by
  have hle : l.mergeSort.Pairwise (· ≤ ·) := by
    have : (l.mergeSort fun a b => decide (a ≤ b)).Pairwise fun a b => decide (a ≤ b) = true :=
      pairwise_mergeSort (by simpa using fun a b c => Nat.le_trans) (by simpa using Nat.le_total) l
    simpa using this
  exact (hle.and ((mergeSort_perm l _).nodup_iff.2 h)).imp fun ⟨h1, h2⟩ => by omega

theorem Marks.scan {m : Nat} (h : Marks n bitmap dirty)
    (hs : dirty.Pairwise (· < ·)) (hm : n ≤ m) : (List.range m).filter (bitSet bitmap) = dirty :=
  filter_range_of_ascending hs (fun i hi => Nat.lt_of_lt_of_le (h.lt i hi) hm) fun i _ => by rw [h.bit]; exact decide_eq_true_iff

theorem Marks.sum_countOnes (h : Marks n bitmap dirty)
    (hs : dirty.Pairwise (· < ·)) : (bitmap.map countOnes).sum = dirty.length := by
  have hle : n ≤ 8 * bitmap.length := by
    rw [h.length]
    unfold bitmapLen divCeil
    omega
  rw [Jwm.sum_countOnes, countP_eq_length_filter, h.scan hs hle]

/-! ## Detection -/

theorem range_grid (gridW : Nat) : ∀ gridH : Nat,
    (List.range gridH).flatMap (fun ty => (List.range gridW).map fun tx => ty * gridW + tx) = List.range (gridH * gridW)
  | 0 => by simp
  | gridH + 1 => by
    rw [range_succ, flatMap_append, range_grid gridW gridH, flatMap_singleton, Nat.succ_mul, range_add]

theorem foldl_mark (p : Nat → Bool) : ∀ (l : List Nat) (bitmap : List Byte) (dirty : List Nat),
    l.foldl (fun acc i => if p i then (markBit acc.1 i, acc.2 ++ [i]) else acc) (bitmap, dirty) =
      ((l.filter p).foldl markBit bitmap, dirty ++ l.filter p)
  | [], _, _ => by simp
  | i :: l, bitmap, dirty => by
    cases h : p i <;> simp [h, foldl_mark p l]

/-- `collect_dirty` marks and lists the changed tiles. -/
theorem collectDirty_eq (current reference : RgbImage) (grid : Nat × Nat) (tile tolerance : Nat) (bitmap : List Byte)
    (dirty : List Nat) : collectDirty current reference grid tile tolerance bitmap dirty =
      (((List.range (grid.2 * grid.1)).filter (tileChanged current reference grid.1 tile tolerance)).foldl markBit bitmap,
        dirty ++ (List.range (grid.2 * grid.1)).filter (tileChanged current reference grid.1 tile tolerance)) := by
  rw [← foldl_mark, ← range_grid, foldl_flatMap]
  simp only [foldl_map]
  rfl

theorem absDiff_comm (a b : Byte) : absDiff a b = absDiff b a := by
  unfold absDiff
  split <;> split <;> omega

theorem absDiff_le_of_not_changed {current : RgbImage} {tolerance : Nat} {a b : Byte} (ht : 0 < tile)
    (hw : 0 < current.width) (h : tileChanged current reference (divCeil current.width tile) tile tolerance
      (tileAt current.width tile i) = false) (ha : current.raw[i]? = some a) (hb : reference.raw[i]? = some b) :
    absDiff a b ≤ tolerance := by
  have hi : i < current.width * current.height * 3 := by
    rw [← current.raw_length]
    exact (List.getElem?_eq_some_iff.1 ha).1
  obtain ⟨htop, hbottom⟩ := row_in_tile hw ht hi
  obtain ⟨h1, h2⟩ := byte_in_row hw ht i
  have hrow := any_eq_false.1 h _ (mem_rows.2 ⟨htop, hbottom⟩)
  -- the row of the byte, in both images
  have hin : ∀ l : List Byte, (slice l (rowOffset current.width tile (tileAt current.width tile i) (i / (current.width * 3)))
      (rowOffset current.width tile (tileAt current.width tile i) (i / (current.width * 3)) +
        tileBytes current.width tile (tileAt current.width tile i)))[
          i - rowOffset current.width tile (tileAt current.width tile i) (i / (current.width * 3))]? = l[i]? := by
    intro l
    rw [getElem?_slice (by omega), Nat.add_sub_cancel' h1]
  have hza := (hin current.raw).trans ha
  have hzb := (hin reference.raw).trans hb
  simp only [Bool.and_eq_true, bne_iff_ne, ne_eq, not_and, Bool.or_eq_true, beq_iff_eq, not_or] at hrow
  by_cases heq : slice current.raw
      (rowOffset current.width tile (tileAt current.width tile i) (i / (current.width * 3)))
      (rowOffset current.width tile (tileAt current.width tile i) (i / (current.width * 3)) +
        tileBytes current.width tile (tileAt current.width tile i)) =
    slice reference.raw (rowOffset current.width tile (tileAt current.width tile i) (i / (current.width * 3)))
      (rowOffset current.width tile (tileAt current.width tile i) (i / (current.width * 3)) +
        tileBytes current.width tile (tileAt current.width tile i))
  · rw [heq, hzb] at hza
    obtain rfl := Option.some.inj hza
    simp [absDiff]
  · obtain ⟨-, hany⟩ := hrow heq
    rw [Bool.not_eq_true, any_eq_false] at hany
    have := hany (a, b) (mem_of_getElem? (getElem?_zip_eq_some.2 ⟨hza, hzb⟩))
    simpa using this

/-- The part of the encoder that only `commit` changes. -/
structure HostModel where
  geometryEpoch : Nat
  tileLog2 : Nat
  tolerance : Nat
  reference : Option RgbImage
  source : Nat × Nat
  qualities : List Nat
  refinementCursor : Nat

namespace TileEncoder

def model (e : TileEncoder) : HostModel :=
  ⟨e.geometryEpoch, e.tileLog2, e.tolerance, e.reference, e.source, e.qualities, e.refinementCursor⟩

def tilesOf (e : TileEncoder) (frame : CapturedFrame) : Nat :=
  divCeil frame.image.width e.tile * divCeil frame.image.height e.tile

theorem tile_pos (e : TileEncoder) : 0 < e.tile := by
  unfold tile
  rw [Nat.one_shiftLeft]
  exact Nat.two_pow_pos _

theorem needsKeyframe_eq_false {e : TileEncoder} {frame : CapturedFrame} (h : e.needsKeyframe frame = false) :
    ∃ reference, e.reference = some reference ∧ e.geometryEpoch = frame.geometryEpoch ∧
      reference.dimensions = frame.image.dimensions ∧ e.source = (frame.sourceWidth, frame.sourceHeight) := by
  unfold needsKeyframe at h
  cases hr : e.reference with
  | none =>
    rw [hr] at h
    cases h
  | some reference =>
    rw [hr] at h
    simp only [Bool.or_eq_false_iff, bne_eq_false_iff_eq] at h
    exact ⟨reference, rfl, h.1.1, h.1.2, h.2⟩

/-- The listed tiles are what the frame owes the viewer. -/
structure Owed (e₀ : TileEncoder) (frame : CapturedFrame) (request : TileEncodeRequest) (dirty : List Nat) : Prop where
  ascending : dirty.Pairwise (· < ·)
  lt : ∀ i ∈ dirty, i < e₀.tilesOf frame
  all : e₀.sendsKeyframe frame request = true → dirty = List.range (e₀.tilesOf frame)
  rest : e₀.sendsKeyframe frame request = false → ∀ reference, e₀.reference = some reference →
    ∀ index, index < e₀.tilesOf frame → index ∉ dirty →
      tileChanged frame.image reference (divCeil frame.image.width e₀.tile) e₀.tile e₀.tolerance index = false

structure Detected (e₀ : TileEncoder) (frame : CapturedFrame) (request : TileEncodeRequest) (e : TileEncoder) : Prop where
  model : e.model = e₀.model
  grid : e.grid = (divCeil frame.image.width e₀.tile, divCeil frame.image.height e₀.tile)
  tiles_lt : e₀.tilesOf frame < 2 ^ 32
  length : e.bitmap.length = bitmapLen (e₀.tilesOf frame)
  owed : Owed e₀ frame request e.detectedDirty
  detected : e.detected = some
    { geometryEpoch := frame.geometryEpoch, keyframe := e₀.sendsKeyframe frame request, request := request
      encoded := frame.image.dimensions, source := (frame.sourceWidth, frame.sourceHeight)
      totalTiles := e₀.tilesOf frame }

theorem gridTiles_ok {width height tiles : Nat} (h : gridTiles width height tile = .ok tiles) :
    tiles = divCeil width tile * divCeil height tile ∧ tiles < 2 ^ 32 := by
  unfold gridTiles at h
  simp only at h
  split at h
  · rename_i hlt
    obtain rfl := Except.ok.inj h
    exact ⟨rfl, hlt⟩
  · cases h

theorem detectTiles_ok {totalTiles : Nat} {frame : CapturedFrame} (h : detectTiles tile frame = .ok totalTiles) :
    totalTiles = divCeil frame.image.width tile * divCeil frame.image.height tile ∧ totalTiles < 2 ^ 32 := by
  simp only [detectTiles, unit_bind_eq_ok, rejectIf_eq_ok] at h
  obtain ⟨-, -, -, -, h⟩ := h
  exact gridTiles_ok h

theorem owed_keyframe (e₀ : TileEncoder) (frame : CapturedFrame) (request : TileEncodeRequest)
    (hk : e₀.sendsKeyframe frame request = true) : Owed e₀ frame request (List.range (e₀.tilesOf frame)) := by
  refine ⟨pairwise_lt_range, fun i hi => mem_range.1 hi, fun _ => rfl, fun hf => ?_⟩
  rw [hk] at hf
  cases hf

theorem owed_delta {e₀ : TileEncoder} {frame : CapturedFrame} {request : TileEncodeRequest}
    (hr : e₀.reference = some reference) (hk : e₀.sendsKeyframe frame request = false) :
    Owed e₀ frame request ((List.range (e₀.tilesOf frame)).filter
      (tileChanged frame.image reference (divCeil frame.image.width e₀.tile) e₀.tile e₀.tolerance)) := by
  refine ⟨pairwise_lt_range.filter _, fun i hi => ?_, fun ht => ?_, fun _ reference' hr' index hlt hnot => ?_⟩
  · exact mem_range.1 (mem_filter.1 hi).1
  · rw [hk] at ht
    cases ht
  · rw [hr] at hr'
    obtain rfl := Option.some.inj hr'
    rw [mem_filter, mem_range, not_and] at hnot
    exact Bool.eq_false_iff.2 (hnot hlt)

theorem length_trimBitmapTail (bitmap : List Byte) (totalTiles : Nat) :
    (trimBitmapTail bitmap totalTiles).length = bitmap.length := by
  unfold trimBitmapTail
  simp only
  split
  · rw [length_modify]
  · rfl

section

variable (e₀ : TileEncoder) (frame : CapturedFrame)

theorem damage_length (keyframe : Bool) (totalTiles : Nat) :
    (e₀.damage frame keyframe totalTiles).1.length = bitmapLen totalTiles := by
  unfold damage
  simp only
  split
  · rw [collectDirty_eq, length_foldl_markBit, length_replicate]
  · rw [length_trimBitmapTail, length_map, length_replicate]

theorem damage_owed (request : TileEncodeRequest) :
    Owed e₀ frame request (e₀.damage frame (e₀.sendsKeyframe frame request) (e₀.tilesOf frame)).2 := by
  unfold damage
  simp only
  split
  · rename_i reference hr hk
    rw [collectDirty_eq, nil_append, Nat.mul_comm]
    exact owed_delta hr hk
  · rename_i hnot
    refine owed_keyframe e₀ frame request ?_
    -- without a reference the frame is a keyframe
    by_contra hk
    rw [Bool.not_eq_true] at hk
    obtain ⟨reference, hr, -⟩ := needsKeyframe_eq_false (Bool.or_eq_false_iff.1 hk).2
    exact hnot reference hr hk

/-- A detection that succeeds lists the tiles owed; one that fails leaves nothing to encode. -/
theorem detect_spec (request : TileEncodeRequest) :
    (∃ error, (e₀.detect frame request).2 = .error error ∧ (e₀.detect frame request).1.model = e₀.model ∧
      (e₀.detect frame request).1.detected = none ∧ (e₀.detect frame request).1.planned = none) ∨
    ((e₀.detect frame request).2 = .ok () ∧ Detected e₀ frame request (e₀.detect frame request).1) := by
  unfold detect
  cases ht : detectTiles e₀.tile frame with
  | error error => exact .inl ⟨error, rfl, rfl, rfl, rfl⟩
  | ok totalTiles =>
    obtain ⟨rfl, hlt⟩ := detectTiles_ok ht
    exact .inr ⟨rfl, rfl, rfl, hlt, damage_length .., damage_owed .., rfl⟩

end

/-! ## Selection -/

theorem refinementTiles_lt {qualities : List Nat} {target limit cursor : Nat} :
    ∀ i ∈ (refinementTiles qualities target limit cursor).1, i < qualities.length := by
  intro i hi
  unfold refinementTiles at hi
  split at hi
  · exact absurd hi not_mem_nil
  · rename_i hne
    simp only [mem_mergeSort] at hi
    have hi := (mem_filter.1 (mem_of_mem_take hi)).1
    have hpos : 0 < qualities.length := by
      rw [Bool.or_eq_true, not_or] at hne
      exact length_pos_iff.2 fun h => hne.1 (by rw [h]; rfl)
    have hstart : cursor % qualities.length < qualities.length := Nat.mod_lt _ hpos
    rcases mem_append.1 hi with hi | hi
    · have := (mem_range'_1.1 hi).2
      omega
    · have := mem_range.1 hi
      omega

theorem atlasColumns_bounds {dirty : Nat} (hd : 0 < dirty) : 0 < atlasColumns dirty tile ∧ atlasColumns dirty tile ≤ dirty := by
  unfold atlasColumns maxAtlasColumns
  simp only
  omega

/-- The atlas of a plan: none without damage, else one cell a tile, inside the frame limits. -/
structure AtlasFits (dirtyTiles tile columns : Nat) (atlas : Option (Nat × Nat × Nat)) : Prop where
  empty : dirtyTiles = 0 → columns = 0 ∧ atlas = none
  columns_pos : 0 < dirtyTiles → 0 < columns
  columns_le : columns ≤ dirtyTiles
  width_le : columns * tile ≤ maxDimension
  size : 0 < dirtyTiles → atlas = some (divCeil dirtyTiles columns, columns * tile, divCeil dirtyTiles columns * tile) ∧
    validateDimensions (columns * tile) (divCeil dirtyTiles columns * tile) = .ok ()

theorem planAtlas_fits {keyframe : Bool} {dirtyTiles gridW columns : Nat} {atlas : Option (Nat × Nat × Nat)}
    (hgrid : keyframe = true → 0 < gridW ∧ gridW ≤ dirtyTiles)
    (h : planAtlas keyframe dirtyTiles gridW tile = .ok (columns, atlas)) : AtlasFits dirtyTiles tile columns atlas := by
  unfold planAtlas at h
  split at h
  · rename_i h0
    obtain ⟨rfl, rfl⟩ := Prod.mk.inj (Except.ok.inj h)
    exact ⟨fun _ => ⟨rfl, rfl⟩, by omega, by omega, by omega, by omega⟩
  · rename_i h0
    simp only [unit_bind_eq_ok, rejectIf_eq_ok, pure_eq_ok] at h
    obtain ⟨hw, -, hv, heq⟩ := h
    obtain ⟨rfl, rfl⟩ := Prod.mk.inj heq
    have hcols : 0 < (if keyframe then gridW else atlasColumns dirtyTiles tile) ∧
        (if keyframe then gridW else atlasColumns dirtyTiles tile) ≤ dirtyTiles := by
      cases keyframe with
      | true => exact hgrid rfl
      | false => exact atlasColumns_bounds (by omega)
    exact ⟨fun h => absurd h h0, fun _ => hcols.1, hcols.2, by omega, fun _ => ⟨rfl, hv⟩⟩

/-- A plan that matches its frame and the tiles marked for it. -/
structure PlanFits (e₀ : TileEncoder) (frame : CapturedFrame) (request : TileEncodeRequest) (dirty : List Nat)
    (p : PlannedFrame) : Prop where
  epoch : p.geometryEpoch = frame.geometryEpoch
  keyframe : p.keyframe = e₀.sendsKeyframe frame request
  dirtyTiles : p.dirtyTiles = dirty.length
  encoded : p.encoded = frame.image.dimensions
  source : p.source = (frame.sourceWidth, frame.sourceHeight)
  atlas : AtlasFits dirty.length e₀.tile p.columns p.atlas

structure Selected (e₀ : TileEncoder) (frame : CapturedFrame) (request : TileEncodeRequest) (e : TileEncoder) : Prop
    extends Detected e₀ frame request e where
  marks : Marks (e₀.tilesOf frame) e.bitmap e.dirty
  selected : Owed e₀ frame request e.dirty
  planned : ∀ p, e.planned = some p → PlanFits e₀ frame request e.dirty p

/-- The qualities are kept for the tiles of the reference. -/
def QualitiesFit (e : TileEncoder) : Prop :=
  ∀ reference, e.reference = some reference →
    e.qualities.length = divCeil reference.width e.tile * divCeil reference.height e.tile

theorem Owed.superset {e₀ : TileEncoder} {frame : CapturedFrame} {request : TileEncodeRequest} {dirty dirty' : List Nat}
    (h : Owed e₀ frame request dirty) (hk : e₀.sendsKeyframe frame request = false) (hs : dirty'.Pairwise (· < ·))
    (hlt : ∀ i ∈ dirty', i < e₀.tilesOf frame) (hsub : dirty ⊆ dirty') : Owed e₀ frame request dirty' := by
  refine ⟨hs, hlt, fun ht => ?_, fun hf reference hr index hi hnot => ?_⟩
  · rw [hk] at ht
    cases ht
  · exact h.rest hf reference hr index hi fun hmem => hnot (hsub hmem)

theorem tile_of_model {e₀ e : TileEncoder} (h : e.model = e₀.model) : e.tile = e₀.tile :=
  congrArg (fun m : HostModel => 1 <<< m.tileLog2) h

section

variable {e₀ : TileEncoder} {frame : CapturedFrame} {request : TileEncodeRequest} (hq : QualitiesFit e₀)
include hq

theorem qualities_length_of_delta (hk : e₀.sendsKeyframe frame request = false) :
    e₀.qualities.length = e₀.tilesOf frame := by
  obtain ⟨reference, hr, -, hdim, -⟩ := needsKeyframe_eq_false (Bool.or_eq_false_iff.1 hk).2
  obtain ⟨hw, hh⟩ := Prod.mk.inj hdim
  rw [hq reference hr, hw, hh]
  rfl

theorem selection_spec {e : TileEncoder} (h : Detected e₀ frame request e) (refinement : Option (Nat × Nat)) :
    Marks (e₀.tilesOf frame) (e.selection (e₀.sendsKeyframe frame request) refinement).2.1
        (e.selection (e₀.sendsKeyframe frame request) refinement).2.2 ∧
      Owed e₀ frame request (e.selection (e₀.sendsKeyframe frame request) refinement).2.2 := by
  have hmarks := Marks.mark_all h.length h.owed.lt (h.owed.ascending.imp Nat.ne_of_lt)
  unfold selection
  simp only
  split
  · rename_i quality limit hk
    have hqual : e.qualities = e₀.qualities := congrArg HostModel.qualities h.model
    have hlt : ∀ i ∈ (refinementTiles e.qualities quality limit e.refinementCursor).1, i < e₀.tilesOf frame := by
      rw [← qualities_length_of_delta hq hk, ← hqual]
      exact refinementTiles_lt
    obtain ⟨hm, hsub⟩ := hmarks.addRepairs hlt
    refine ⟨hm.sort, h.owed.superset hk (pairwise_lt_mergeSort hm.nodup) hm.sort.lt fun i hi => ?_⟩
    exact (mergeSort_perm _ _).mem_iff.2 (hsub hi)
  · exact ⟨hmarks, h.owed⟩
  · exact ⟨hmarks, h.owed⟩

/-- A selection keeps the detection, and plans the frame for the tiles it marks or not at all. -/
theorem select_spec {e : TileEncoder} (hw : 0 < frame.image.width) (hh : 0 < frame.image.height) (h : Detected e₀ frame request e)
    (refinement : Option (Nat × Nat)) : Selected e₀ frame request (e.selectRefinement refinement).1 := by
  obtain ⟨hmarks, howed⟩ := selection_spec hq h refinement
  have htile := tile_of_model h.model
  have hlen := hmarks.length
  unfold selectRefinement
  split
  · rename_i hnone
    rw [h.detected] at hnone
    cases hnone
  rename_i detected hd
  rw [h.detected] at hd
  obtain rfl := Option.some.inj hd
  simp only
  generalize e.selection (e₀.sendsKeyframe frame request) refinement = sel at *
  obtain ⟨cursor, bitmap, dirty⟩ := sel
  simp only at hmarks howed hlen ⊢
  have unplanned : Selected e₀ frame request { e with planned := none, bitmap := bitmap, dirty := dirty } :=
    ⟨⟨h.model, h.grid, h.tiles_lt, hlen, h.owed, h.detected⟩, hmarks, howed, fun p hp => by cases hp⟩
  split
  · exact unplanned
  split
  · exact unplanned
  split
  · exact unplanned
  · rename_i columns atlas hatlas
    refine ⟨⟨h.model, h.grid, h.tiles_lt, hlen, h.owed, h.detected⟩, hmarks, howed, fun p hp => ?_⟩
    obtain rfl := Option.some.inj hp
    refine ⟨rfl, rfl, rfl, rfl, rfl, planAtlas_fits ?_ (by rw [← htile]; exact hatlas)⟩
    intro hk
    rw [howed.all hk, length_range, h.grid]
    have hgw : 0 < divCeil frame.image.width e₀.tile := divCeil_pos hw (tile_pos e₀)
    have hgh : 0 < divCeil frame.image.height e₀.tile := divCeil_pos hh (tile_pos e₀)
    exact ⟨hgw, Nat.le_mul_of_pos_right _ hgh⟩

end

/-- What planning leaves for the encode: a selection, or nothing. -/
def Ready (e₀ : TileEncoder) (frame : CapturedFrame) (request : TileEncodeRequest) (e : TileEncoder) : Prop :=
  (e.model = e₀.model ∧ e.detected = none ∧ e.planned = none) ∨ Selected e₀ frame request e

section Ready

variable {e₀ e : TileEncoder} {frame : CapturedFrame} {request : TileEncodeRequest}

theorem Ready.plan (hq : QualitiesFit e₀) (hw : 0 < frame.image.width) (hh : 0 < frame.image.height) :
    Ready e₀ frame request (e₀.plan frame request).1 := by
  unfold TileEncoder.plan
  rcases detect_spec e₀ frame request with ⟨error, herr, hm, hd, hp⟩ | ⟨hok, hdet⟩
  · generalize e₀.detect frame request = r at *
    obtain ⟨e, res⟩ := r
    simp only at herr hm hd hp
    rw [herr]
    exact .inl ⟨hm, hd, hp⟩
  · generalize e₀.detect frame request = r at *
    obtain ⟨e, res⟩ := r
    simp only at hok hdet
    rw [hok]
    exact .inr (select_spec hq hw hh hdet none)

theorem Ready.select (h : Ready e₀ frame request e) (hq : QualitiesFit e₀) (hw : 0 < frame.image.width)
    (hh : 0 < frame.image.height) (refinement : Option (Nat × Nat)) :
    Ready e₀ frame request (e.selectRefinement refinement).1 := by
  rcases h with ⟨hm, hd, hp⟩ | h
  · unfold selectRefinement
    rw [hd]
    exact .inl ⟨hm, hd, hp⟩
  · exact .inr (select_spec hq hw hh h.toDetected refinement)

theorem Ready.selections (hq : QualitiesFit e₀) (hw : 0 < frame.image.width) (hh : 0 < frame.image.height) :
    ∀ (selections : List (Option (Nat × Nat))) (e : TileEncoder), Ready e₀ frame request e →
      Ready e₀ frame request (selections.foldl (fun e refinement => (e.selectRefinement refinement).1) e)
  | [], _, h => h
  | refinement :: selections, _, h => Ready.selections hq hw hh selections _ (h.select hq hw hh refinement)

end Ready

end TileEncoder

end Jwm.Remote
