/-
The grid (`calculate_grid`): equal cells in rows, the last row wider where it is not full, and the remainders of the
divisions in the last column and the last row.
-/
import Jwm.Layout.FactorRows
import Mathlib.Data.List.Range

namespace Jwm.Layout

open List F32

variable {K : Type}

/-! ## The source -/

/-- One candidate of the search for the dimensions of a grid. -/
def scoreColumns (n : Nat) (area : Rect) (targetAspect : Float32) (best : (Int × Int) × Float32) (cols : Int) :
    (Int × Int) × Float32 :=
  let rows := (n + cols - 1) / cols
  let cellAspect := (ofI32 area.w / ofI32 cols) / (ofI32 area.h / ofI32 rows)
  let emptyCells := cols * rows - n
  let score := (cellAspect - targetAspect).abs + ofI32 emptyCells * 0.15
  if score < best.2 then ((cols, rows), score) else best

def chooseGridDimensions (n : Nat) (area : Rect) : Int × Int :=
  if n ≤ 1 then (1, 1)
  else
    let targetAspect := if 0 < area.h then clamp (ofI32 area.w / ofI32 area.h).sqrt 1.0 1.8 else 1.0
    -- the score to beat is `f32::MAX`
    (((List.range n).map fun (i : Nat) => (i : Int) + 1).foldl (scoreColumns n area targetAspect)
      (((n : Int), 1), Float32.ofBits 0x7F7FFFFF)).1

def calculateGrid (params : LayoutParams) (clients : List (LayoutClient K)) : List (LayoutResult K) :=
  let n : Int := clients.length
  let gap := boundedGap params.screenArea params.gap
  let area := usableArea params.screenArea gap
  let (cols, rows) := chooseGridDimensions clients.length area
  let rowGap := fittingInnerGap area.h rows.toNat gap
  let cellH := (area.h - (rows - 1) * rowGap) / rows
  clients.mapIdx fun i c =>
    let row := (i : Int) / cols
    let col := (i : Int) - row * cols
    let rowCols := if row = rows - 1 then n - row * cols else cols
    let columnGap := fittingInnerGap area.w rowCols.toNat gap
    let cellW := (area.w - (rowCols - 1) * columnGap) / rowCols
    let xOff := col * (cellW + columnGap)
    let yOff := row * (cellH + rowGap)
    let w := if col = rowCols - 1 then area.w - xOff else cellW
    let h := if row = rows - 1 then area.h - yOff else cellH
    { key := c.key, rect := clientRect (area.x + xOff) (area.y + yOff) w h c.borderW }

/-! ## The dimensions -/

/-- As many rows as the columns need for `n` clients. -/
structure Dimensions (n : Nat) (cols rows : Int) : Prop where
  pos : 1 ≤ cols
  le : cols ≤ n
  rows : rows = (n + cols - 1) / cols

theorem chooseGridDimensions_spec {n : Nat} (hn : 1 ≤ n) (area : Rect) :
    Dimensions n (chooseGridDimensions n area).1 (chooseGridDimensions n area).2 := by
  unfold chooseGridDimensions
  split
  · have hone : n = 1 := by omega
    subst hone
    exact ⟨by decide, by decide, by decide⟩
  · generalize (if 0 < area.h then clamp (ofI32 area.w / ofI32 area.h).sqrt 1.0 1.8 else 1.0) = target
    have hstart : Dimensions n (n : Int) 1 := by
      refine ⟨by omega, Int.le_refl _, ?_⟩
      refine (Int.ediv_eq_iff_of_pos (by omega)).2 ⟨by omega, by omega⟩ |>.symm
    have hcols : ∀ cols ∈ (range n).map fun (i : Nat) => (i : Int) + 1, 1 ≤ cols ∧ cols ≤ n := by
      intro cols hmem
      obtain ⟨i, hi, rfl⟩ := mem_map.1 hmem
      rw [mem_range] at hi
      omega
    generalize (range n).map (fun (i : Nat) => (i : Int) + 1) = candidates at hcols
    generalize Float32.ofBits 0x7F7FFFFF = score
    suffices h : ∀ best : (Int × Int) × Float32, Dimensions n best.1.1 best.1.2 →
        Dimensions n (candidates.foldl (scoreColumns n area target) best).1.1
          (candidates.foldl (scoreColumns n area target) best).1.2 from h _ hstart
    induction candidates with
    | nil => exact fun best h => h
    | cons cols rest ih =>
      intro best hbest
      rw [foldl_cons]
      refine ih (fun c hc => hcols c (mem_cons_of_mem _ hc)) _ ?_
      obtain ⟨hpos, hle⟩ := hcols cols mem_cons_self
      unfold scoreColumns
      dsimp only
      split
      · exact ⟨hpos, hle, rfl⟩
      · exact hbest

/-! ## Cells along one side -/

def cellLen (extent : Int) (count : Int) (gap : Int) : Int := (extent - (count - 1) * gap) / count

/-- Where cell `idx` of `count` starts. -/
def cellStart (extent count gap idx : Int) : Int := idx * (cellLen extent count gap + gap)

/-- The length of cell `idx`; the last has the remainder. -/
def cellExtent (extent count gap idx : Int) : Int :=
  if idx = count - 1 then extent - cellStart extent count gap idx else cellLen extent count gap

variable {extent count gap idx : Int}

theorem cell_fits (hcount : 1 ≤ count) (hgap : 0 ≤ gap) (hfit : (count - 1) * gap + count ≤ extent) (hidx : 0 ≤ idx)
    (hlt : idx < count) :
    0 ≤ cellStart extent count gap idx ∧ 1 ≤ cellExtent extent count gap idx ∧
      cellStart extent count gap idx + cellExtent extent count gap idx ≤ extent ∧
      ∀ idx', idx < idx' → cellStart extent count gap idx + cellExtent extent count gap idx ≤ cellStart extent count gap idx' ∨
        count ≤ idx' := by
  have hcell : 1 ≤ cellLen extent count gap := by
    unfold cellLen
    rw [Int.le_ediv_iff_mul_le (by omega)]
    omega
  have htotal : count * cellLen extent count gap + (count - 1) * gap ≤ extent := by
    unfold cellLen
    have := Int.mul_ediv_self_le (x := extent - (count - 1) * gap) (show count ≠ 0 by omega)
    omega
  unfold cellExtent cellStart
  generalize cellLen extent count gap = cell at hcell htotal ⊢
  have hlast : (count - 1) * (cell + gap) + cell ≤ extent := by linarith
  have hstart : idx * (cell + gap) ≤ (count - 1) * (cell + gap) :=
    Int.mul_le_mul_of_nonneg_right (by omega) (by omega)
  refine ⟨Int.mul_nonneg hidx (by omega), ?_, ?_, fun idx' hidx' => ?_⟩
  · split
    · omega
    · exact hcell
  · split
    · omega
    · omega
  · by_cases hlt' : idx' < count
    · refine .inl ?_
      rw [if_neg (by omega)]
      have hnext : (idx + 1) * (cell + gap) ≤ idx' * (cell + gap) := Int.mul_le_mul_of_nonneg_right (by omega) (by omega)
      have hexpand : (idx + 1) * (cell + gap) = idx * (cell + gap) + (cell + gap) := by ring
      omega
    · exact .inr (by omega)

theorem cell_crowded (hextent : 1 ≤ extent) (hcrowd : extent < count) :
    cellStart extent count 0 idx = 0 ∧ (cellExtent extent count 0 idx = 0 ∨ cellExtent extent count 0 idx = extent) := by
  have hcell : cellLen extent count 0 = 0 := by
    unfold cellLen
    rw [Int.mul_zero, Int.sub_zero]
    exact Int.ediv_eq_zero_of_lt (by omega) hcrowd
  unfold cellExtent cellStart
  rw [hcell, Int.zero_add, Int.mul_zero]
  refine ⟨rfl, ?_⟩
  split
  · exact .inr (Int.sub_zero _)
  · exact .inl rfl

theorem fittingInnerGap_crowded {extent : Int} {count : Nat} (requested : Int) (hextent : 1 ≤ extent)
    (hcrowd : extent < count) : fittingInnerGap extent count requested = 0 := by
  unfold fittingInnerGap
  rw [if_neg (by omega)]
  split
  · rfl
  · rw [I32.saturatingSub_eq (by omega) (by omega) (by omega) (by omega)]
    dsimp only
    rw [max_eq_right (show extent - (count : Int) ≤ 0 by omega), Int.zero_ediv]
    exact min_eq_right (le_max_right _ _)

/-- A cell of `count` with the gap that fits: always inside, and apart from the later ones where there is room. -/
structure CellIn (extent count gap idx : Int) : Prop where
  start : 0 ≤ cellStart extent count gap idx
  len : 0 ≤ cellExtent extent count gap idx
  stop : cellStart extent count gap idx + max (cellExtent extent count gap idx) 1 ≤ extent
  positive : count ≤ extent → 1 ≤ cellExtent extent count gap idx
  next : count ≤ extent → ∀ idx', idx < idx' → idx' < count →
    cellStart extent count gap idx + cellExtent extent count gap idx ≤ cellStart extent count gap idx'
  last : idx + 1 = count → cellStart extent count gap idx + cellExtent extent count gap idx = extent

theorem cell_last (hlast : idx + 1 = count) :
    cellStart extent count gap idx + cellExtent extent count gap idx = extent := by
  unfold cellExtent
  rw [if_pos (by omega)]
  omega

theorem cellIn {count : Nat} (requested : Int) (hcount : 1 ≤ count) (hextent : 1 ≤ extent) (hmax : extent ≤ I32.max)
    (hidx : 0 ≤ idx) (hlt : idx < count) : CellIn extent count (fittingInnerGap extent count requested) idx := by
  by_cases hfit : (count : Int) ≤ extent
  · obtain ⟨hgap, hgaps⟩ := fittingInnerGap_spec requested hcount hfit hmax
    obtain ⟨hstart, hlen, hstop, hnext⟩ := cell_fits (by omega) hgap hgaps hidx hlt
    refine ⟨hstart, by omega, by omega, fun _ => hlen, fun _ idx' h h' => ?_, cell_last⟩
    exact (hnext idx' h).resolve_right (by omega)
  · rw [fittingInnerGap_crowded requested hextent (by omega)]
    obtain ⟨hstart, hlen⟩ := @cell_crowded extent count idx hextent (by omega)
    refine ⟨by omega, by omega, by omega, fun h => absurd h hfit, fun h => absurd h hfit, cell_last⟩

/-! ## Rows and columns -/

def gridRowCols (n cols rows row : Int) : Int := if row = rows - 1 then n - row * cols else cols

/-- Where client `i` of `n` stands in the grid. -/
structure Placed (n cols rows i : Int) : Prop where
  row : 0 ≤ i / cols ∧ i / cols < rows
  col : 0 ≤ i - i / cols * cols ∧ i - i / cols * cols < gridRowCols n cols rows (i / cols)
  cols : gridRowCols n cols rows (i / cols) ≤ cols

section

variable {n : Nat} {cols rows i : Int} (h : Dimensions n cols rows) (hi : 0 ≤ i) (hlt : i < n)
include h hi hlt

theorem placed : Placed n cols rows i := by
  obtain ⟨hpos, hle, hrows⟩ := h
  have hrows' : rows = (n - 1) / cols + 1 := by
    rw [hrows, show (n : Int) + cols - 1 = n - 1 + 1 * cols by omega, Int.add_mul_ediv_right _ _ (by omega)]
  have hrow : i / cols ≤ (n - 1) / cols := Int.ediv_le_ediv (by omega) (by omega)
  have hdiv := Int.mul_ediv_add_emod i cols
  have hmod := Int.emod_nonneg i (show cols ≠ 0 by omega)
  have hmod' := Int.emod_lt_of_pos i (show 0 < cols by omega)
  have hcomm : i / cols * cols = cols * (i / cols) := Int.mul_comm _ _
  have hdivn := Int.mul_ediv_add_emod ((n : Int) - 1) cols
  have hmodn := Int.emod_lt_of_pos ((n : Int) - 1) (show 0 < cols by omega)
  refine ⟨⟨Int.ediv_nonneg hi (by omega), by omega⟩, ⟨by omega, ?_⟩, ?_⟩
  · unfold gridRowCols
    split
    · omega
    · omega
  · unfold gridRowCols
    split
    · rename_i hlast
      have hsame : i / cols = (n - 1) / cols := by omega
      rw [hsame] at hcomm ⊢
      omega
    · exact Int.le_refl _

theorem placed_last (hlast : i + 1 = n ∨ (i + 1) % cols = 0) : i - i / cols * cols + 1 = gridRowCols n cols rows (i / cols) := by
  obtain ⟨hrow, hcol, hcols⟩ := placed h hi hlt
  have hpos := h.pos
  have hdiv := Int.mul_ediv_add_emod i cols
  have hmod := Int.emod_lt_of_pos i (show 0 < cols by omega)
  have hcomm : i / cols * cols = cols * (i / cols) := Int.mul_comm _ _
  rcases hlast with hlast | hlast
  · have hrows : rows = i / cols + 1 := by
      rw [h.rows, show (n : Int) + cols - 1 = i + 1 * cols by omega, Int.add_mul_ediv_right _ _ (by omega)]
    unfold gridRowCols
    rw [if_pos (by omega)]
    omega
  · have hfull : i % cols + 1 = cols := by
      by_contra hne
      rw [← Int.emod_add_emod, Int.emod_eq_of_lt (by have := Int.emod_nonneg i (show cols ≠ 0 by omega); omega) (by omega)] at hlast
      have := Int.emod_nonneg i (show cols ≠ 0 by omega)
      omega
    omega

end

/-- The rectangle of client `i`. -/
def gridRect (area : Rect) (n : Nat) (cols rows gap : Int) (i : Nat) (borderW : Int) : Rect :=
  let row := (i : Int) / cols
  let rowCols := gridRowCols n cols rows row
  let col := (i : Int) - row * cols
  let columnGap := fittingInnerGap area.w rowCols.toNat gap
  let rowGap := fittingInnerGap area.h rows.toNat gap
  clientRect (area.x + cellStart area.w rowCols columnGap col) (area.y + cellStart area.h rows rowGap row)
    (cellExtent area.w rowCols columnGap col) (cellExtent area.h rows rowGap row) borderW

theorem calculateGrid_eq (params : LayoutParams) (clients : List (LayoutClient K)) :
    calculateGrid params clients = clients.mapIdx fun i c =>
      { key := c.key
        rect := gridRect (usableArea params.screenArea (boundedGap params.screenArea params.gap)) clients.length
          (chooseGridDimensions clients.length
            (usableArea params.screenArea (boundedGap params.screenArea params.gap))).1
          (chooseGridDimensions clients.length
            (usableArea params.screenArea (boundedGap params.screenArea params.gap))).2
          (boundedGap params.screenArea params.gap) i c.borderW } := rfl

/-! ## The tiling -/

/-- Results that tile `area` as a grid: what the last two clauses say of the edges, and that no two overlap, is for
areas with a pixel for each cell. -/
structure GridTiling (clients : List (LayoutClient K)) (area : Rect) (cols rows : Int)
    (results : List (LayoutResult K)) : Prop where
  keys : results.map LayoutResult.key = clients.map LayoutClient.key
  within : ∀ r ∈ results, r.rect.Within area
  positive : ∀ r ∈ results, r.rect.Positive
  apart : cols ≤ area.w → rows ≤ area.h → results.Pairwise fun a b => a.rect.Apart b.rect
  right : cols ≤ area.w → ∀ (i : Nat) (r : LayoutResult K), results[i]? = some r →
    (i + 1 = clients.length ∨ ((i : Int) + 1) % cols = 0) → r.rect.x + r.rect.w = area.x + area.w
  bottom : rows ≤ area.h → ∀ (i : Nat) (r : LayoutResult K), results[i]? = some r → (i : Int) / cols + 1 = rows →
    r.rect.y + r.rect.h = area.y + area.h

section Cells

variable {area : Rect} {n : Nat} {cols rows : Int} (gap : Int)

theorem cellIn_column (hw : 1 ≤ area.w) (hw' : area.w ≤ I32.max) (hdim : Dimensions n cols rows) {i : Int}
    (hi : 0 ≤ i) (hlt : i < n) :
    CellIn area.w (gridRowCols n cols rows (i / cols))
      (fittingInnerGap area.w (gridRowCols n cols rows (i / cols)).toNat gap) (i - i / cols * cols) := by
  obtain ⟨-, hcol, -⟩ := placed hdim hi hlt
  have hcell := @cellIn area.w (i - i / cols * cols) (gridRowCols n cols rows (i / cols)).toNat gap (by omega) hw hw'
    hcol.1 (by omega)
  rwa [Int.toNat_of_nonneg (by omega)] at hcell

theorem cellIn_row (hh : 1 ≤ area.h) (hh' : area.h ≤ I32.max) (hdim : Dimensions n cols rows) {i : Int}
    (hi : 0 ≤ i) (hlt : i < n) : CellIn area.h rows (fittingInnerGap area.h rows.toNat gap) (i / cols) := by
  obtain ⟨hrow, -, -⟩ := placed hdim hi hlt
  have hcell := @cellIn area.h (i / cols) rows.toNat gap (by omega) hh hh' hrow.1 (by omega)
  rwa [Int.toNat_of_nonneg (by omega)] at hcell

section

variable {i : Nat} (hw : 1 ≤ area.w) (hw' : area.w ≤ I32.max) (hh : 1 ≤ area.h) (hh' : area.h ≤ I32.max) (hdim : Dimensions n cols rows)
include hw hw' hh hh' hdim

theorem gridRect_eq (hlt : i < n) : gridRect area n cols rows gap i 0 =
      ⟨area.x + cellStart area.w (gridRowCols n cols rows (i / cols))
          (fittingInnerGap area.w (gridRowCols n cols rows (i / cols)).toNat gap) (i - i / cols * cols),
        area.y + cellStart area.h rows (fittingInnerGap area.h rows.toNat gap) (i / cols),
        max (cellExtent area.w (gridRowCols n cols rows (i / cols))
          (fittingInnerGap area.w (gridRowCols n cols rows (i / cols)).toNat gap) (i - i / cols * cols)) 1,
        max (cellExtent area.h rows (fittingInnerGap area.h rows.toNat gap) (i / cols)) 1⟩ := by
  have hcolumn := cellIn_column gap hw hw' hdim (Int.natCast_nonneg i) (by omega)
  have hrow := cellIn_row gap hh hh' hdim (Int.natCast_nonneg i) (by omega)
  exact clientRect_borderless (by have := hcolumn.start; have := hcolumn.stop; omega)
    (by have := hrow.start; have := hrow.stop; omega) hcolumn.len hrow.len

/-- The rectangle of a later client lies beside that of an earlier one in the same row, else below it. -/
theorem gridRect_apart (hcols : cols ≤ area.w) (hrows : rows ≤ area.h) {j : Nat} (hij : i < j) (hlt : j < n) :
    (gridRect area n cols rows gap i 0).Apart (gridRect area n cols rows gap j 0) := by
  have hpos : 0 < cols := hdim.pos
  have hrow := cellIn_row gap hh hh' hdim (Int.natCast_nonneg i) (by omega)
  have hcolumn := cellIn_column gap hw hw' hdim (Int.natCast_nonneg i) (by omega)
  have hplace := placed hdim (Int.natCast_nonneg i) (show (i : Int) < n by omega)
  have hplace' := placed hdim (Int.natCast_nonneg j) (show (j : Int) < n by omega)
  rw [gridRect_eq gap hw hw' hh hh' hdim (show i < n by omega), gridRect_eq gap hw hw' hh hh' hdim hlt]
  have hmono : (i : Int) / cols ≤ j / cols := Int.ediv_le_ediv hpos (by omega)
  rcases Int.lt_or_eq_of_le hmono with hbelow | hsame
  · refine .inr (.inr (.inl ?_))
    have hnext := hrow.next hrows _ hbelow hplace'.row.2
    have hlen := hrow.positive hrows
    dsimp only
    omega
  · refine .inl ?_
    have hfits := Int.le_trans hplace.cols hcols
    have hnext := hcolumn.next hfits (j - i / cols * cols) (by omega) (by rw [hsame]; exact hplace'.col.2)
    have hlen := hcolumn.positive hfits
    dsimp only
    rw [← hsame]
    omega

end

end Cells

theorem getElem?_calculateGrid {params : LayoutParams} {clients : List (LayoutClient K)} {area : Rect} {cols rows : Int}
    (harea : usableArea params.screenArea (boundedGap params.screenArea params.gap) = area)
    (hdim : chooseGridDimensions clients.length area = (cols, rows)) (hborder : Borderless clients) {i : Nat}
    {r : LayoutResult K} (h : (calculateGrid params clients)[i]? = some r) :
    i < clients.length ∧
      r.rect = gridRect area clients.length cols rows (boundedGap params.screenArea params.gap) i 0 := by
  rw [calculateGrid_eq, getElem?_mapIdx, harea, hdim] at h
  obtain ⟨c, hc, rfl⟩ := Option.map_eq_some_iff.1 h
  refine ⟨(List.getElem?_eq_some_iff.1 hc).1, ?_⟩
  rw [hborder c (mem_of_getElem? hc)]

/-- The grid tiles the usable area, with the dimensions it chose. -/
theorem calculateGrid_tiling (params : LayoutParams) (clients : List (LayoutClient K)) (hne : clients ≠ [])
    (hborder : Borderless clients) (cols rows : Int)
    (hdim : chooseGridDimensions clients.length
      (usableArea params.screenArea (boundedGap params.screenArea params.gap)) = (cols, rows)) :
    Dimensions clients.length cols rows ∧
      GridTiling clients (usableArea params.screenArea (boundedGap params.screenArea params.gap)) cols rows
        (calculateGrid params clients) := by
  obtain ⟨⟨hw, hw'⟩, hh, hh'⟩ := usableArea_sides params.screenArea (boundedGap params.screenArea params.gap)
  generalize harea : usableArea params.screenArea (boundedGap params.screenArea params.gap) = area at hdim hw hw' hh hh' ⊢
  have hdims := chooseGridDimensions_spec (length_pos_iff.2 hne) area
  rw [hdim] at hdims
  dsimp only at hdims
  have hget := fun {i r} => @getElem?_calculateGrid _ params clients area cols rows harea hdim hborder i r
  generalize boundedGap params.screenArea params.gap = gap at hget
  have hcells : ∀ r ∈ calculateGrid params clients, r.rect.Within area ∧ r.rect.Positive := by
    intro r hr
    obtain ⟨i, hi⟩ := mem_iff_getElem?.1 hr
    obtain ⟨hlt, hrect⟩ := hget hi
    obtain ⟨hstart, -, hstop, -, -, -⟩ := cellIn_column gap hw hw' hdims (Int.natCast_nonneg i) (by omega)
    obtain ⟨hstart', -, hstop', -, -, -⟩ := cellIn_row gap hh hh' hdims (Int.natCast_nonneg i) (by omega)
    rw [hrect, gridRect_eq gap hw hw' hh hh' hdims hlt]
    exact ⟨⟨by dsimp only; omega, by dsimp only; omega, by dsimp only; omega, by dsimp only; omega⟩,
      le_max_right _ _, le_max_right _ _⟩
  refine ⟨hdims, ?_, fun r hr => (hcells r hr).1, fun r hr => (hcells r hr).2, fun hcols hrows => ?_,
    fun hcols i r hi hlast => ?_, fun hrows i r hi hlast => ?_⟩
  · rw [calculateGrid_eq]
    exact mapIdx_keys clients _
  · refine pairwise_iff_getElem.2 fun i j hi hj hij => ?_
    obtain ⟨hlt, hrect⟩ := hget (getElem?_eq_getElem hi)
    obtain ⟨hlt', hrect'⟩ := hget (getElem?_eq_getElem hj)
    rw [hrect, hrect']
    exact gridRect_apart gap hw hw' hh hh' hdims hcols hrows hij hlt'
  · obtain ⟨hlt, hrect⟩ := hget hi
    have hplace := placed hdims (Int.natCast_nonneg i) (by omega)
    have hcell := cellIn_column gap hw hw' hdims (Int.natCast_nonneg i) (by omega)
    have hpositive := hcell.positive (Int.le_trans hplace.cols hcols)
    have hstop := hcell.last (placed_last hdims (Int.natCast_nonneg i) (by omega) (by omega))
    rw [hrect, gridRect_eq gap hw hw' hh hh' hdims hlt]
    dsimp only
    omega
  · obtain ⟨hlt, hrect⟩ := hget hi
    have hcell := cellIn_row gap hh hh' hdims (Int.natCast_nonneg i) (by omega)
    have hpositive := hcell.positive hrows
    have hstop := hcell.last hlast
    rw [hrect, gridRect_eq gap hw hw' hh hh' hdims hlt]
    dsimp only
    omega

/-- No sum that places a cell leaves `i32` while the edges of the area are in it. -/
theorem GridTiling.in_i32 {clients : List (LayoutClient K)} {area : Rect} {cols rows : Int} {results : List (LayoutResult K)}
    (h : GridTiling clients area cols rows results) (hx : I32.min ≤ area.x) (hright : area.x + area.w ≤ I32.max)
    (hy : I32.min ≤ area.y) (hbottom : area.y + area.h ≤ I32.max) : ∀ r ∈ results,
      (I32.min ≤ r.rect.x ∧ r.rect.x + r.rect.w ≤ I32.max) ∧ I32.min ≤ r.rect.y ∧ r.rect.y + r.rect.h ≤ I32.max := by
  intro r hr
  obtain ⟨hleft, htop, hright', hbottom'⟩ := h.within r hr
  omega

/-- Five clients on a small screen: two rows, the second of two clients. -/
def Sample.gridParams : LayoutParams := ⟨⟨10, 0, 17, 9⟩, 1, 0.5, 1⟩

def Sample.gridClients : List (LayoutClient Nat) := (List.range 5).map fun i => ⟨i, 1.0, 0⟩

theorem calculateGrid_tiling_incomplete :
    (calculateGrid Sample.gridParams Sample.gridClients).map LayoutResult.rect =
        [⟨11, 1, 4, 3⟩, ⟨16, 1, 4, 3⟩, ⟨21, 1, 5, 3⟩, ⟨11, 5, 7, 3⟩, ⟨19, 5, 7, 3⟩] ∧
      GridTiling Sample.gridClients (usableArea ⟨10, 0, 17, 9⟩ 1) 3 2
        (calculateGrid Sample.gridParams Sample.gridClients) :=
  ⟨by decide +kernel,
    (calculateGrid_tiling Sample.gridParams Sample.gridClients (by decide) (by decide) 3 2 (by decide +kernel)).2⟩

end Jwm.Layout
