/-
Bottom stack, centered master and three columns (`calculate_bstack`, `centered_columns`). Like the other casts of client
counts, the saturating one of the stack's count is not modelled.
-/
import Jwm.Layout.Grid
import Jwm.Layout.Stacks

namespace Jwm.Layout

open List

variable {K : Type}

/-! ## The source -/

/-- `step_by(2)`. -/
def everyOther {α : Type} : List α → List α
  | [] => []
  | [a] => [a]
  | a :: _ :: rest => a :: everyOther rest

def bstackRows (nStack : Int) : Int := if 4 < nStack then 2 else 1

def bstackCols (nStack : Int) : Int := if 0 < nStack then (nStack + bstackRows nStack - 1) / bstackRows nStack else 0

/-- The heights of a bottom stack. -/
structure BstackHeights where
  rowGap : Int
  master : Int
  stackTotal : Int
  stackCell : Int

def bstackHeights (params : LayoutParams) (hasStack : Bool) (stackRows : Int) : BstackHeights :=
  let area := params.area
  let rowGap := if hasStack then fittingInnerGap area.h (1 + stackRows.toNat) params.innerGap else 0
  let mh :=
    if hasStack then
      let stackMinimum := I32.saturatingMul stackRows (I32.saturatingAdd rowGap 1)
      I32.clampTo (F32.toI32 (F32.ofI32 (area.h - rowGap) * params.mFact)) 1 (max (area.h - stackMinimum) 1)
    else area.h
  let stackTotalH := max (area.h - mh - rowGap) 1
  let stackCellH := max ((stackTotalH - max (stackRows - 1) 0 * rowGap) / max stackRows 1) 1
  { rowGap, master := mh, stackTotal := stackTotalH, stackCell := stackCellH }

def bstackRow (params : LayoutParams) (stackClients : List (LayoutClient K)) (heights : BstackHeights)
    (nStack stackRows stackCols : Int) (row : Nat) : List (LayoutResult K) :=
  let area := params.area
  let rowStart := (row * stackCols).toNat
  if stackClients.length ≤ rowStart then []
  else
    let rowLen := if row = stackRows - 1 then (max (nStack - row * stackCols) 0).toNat else stackCols.toNat
    let rowEnd := min (rowStart + rowLen) stackClients.length
    -- the last row takes what the division leaves
    let rowH := if row = stackRows - 1 then max (heights.stackTotal - row * (heights.stackCell + heights.rowGap)) 1
      else heights.stackCell
    pushFactorRow ((stackClients.take rowEnd).drop rowStart) area.x
      (area.y + heights.master + heights.rowGap + row * (heights.stackCell + heights.rowGap)) area.w rowH params.innerGap

def calculateBstack (params : LayoutParams) (clients : List (LayoutClient K)) : List (LayoutResult K) :=
  let gap := params.innerGap
  let area := params.area
  let nMasterCount := min clients.length params.nMaster
  let nStack : Int := (clients.length - params.nMaster : Nat)
  if params.nMaster = 0 then calculateGrid params clients
  else
    let hasStack := decide (0 < nStack) && decide (0 < nMasterCount)
    let stackRows := bstackRows nStack
    let heights := bstackHeights params hasStack stackRows
    pushFactorRow (clients.take params.nMaster) area.x area.y area.w heights.master gap ++
      (List.range stackRows.toNat).flatMap
        (bstackRow params (clients.drop params.nMaster) heights nStack stackRows (bstackCols nStack))

def centeredColumns (params : LayoutParams) (clients : List (LayoutClient K)) (shrinkMaster : Bool) : List (LayoutResult K) :=
  let gap := params.innerGap
  let area := params.area
  let nStack : Int := (clients.length - params.nMaster : Nat)
  if params.nMaster = 0 then calculateGrid params clients
  else if nStack = 0 then pushFactorColumn clients area.x area.y area.w area.h gap
  else if area.w < area.h then calculateBstack params clients
  else
    let mFact := F32.clamp params.mFact 0.25 0.75
    let masters := clients.take params.nMaster
    let stack := clients.drop params.nMaster
    if nStack = 1 then
      let mw := F32.toI32 (F32.max (F32.ofI32 (area.w - gap) * mFact) 1.0)
      let sw := max (area.w - mw - gap) 1
      pushFactorColumn masters area.x area.y mw area.h gap ++ pushFactorColumn stack (area.x + mw + gap) area.y sw area.h gap
    else
      let masterBias := if !shrinkMaster || decide (nStack ≤ 2) then 1.0 else F32.max (2.0 / F32.ofI32 nStack) 0.7
      let columnGap := fittingInnerGap area.w 3 gap
      let contentW := max (I32.saturatingSub area.w (I32.saturatingMul columnGap 2)) 3
      let mw := I32.clampTo (F32.toI32 (F32.ofI32 contentW * mFact * masterBias)) 1 (contentW - 2)
      let sideWTotal := max (contentW - mw) 2
      let leftW := max (sideWTotal / 2) 1
      let rightW := max (sideWTotal - leftW) 1
      let masterX := area.x + leftW + columnGap
      let rightX := masterX + mw + columnGap
      pushFactorColumn masters masterX area.y mw area.h gap ++
        (pushFactorColumn (everyOther stack) area.x area.y leftW area.h gap ++
          pushFactorColumn (everyOther (stack.drop 1)) rightX area.y rightW area.h gap)

def calculateCenteredMaster (params : LayoutParams) (clients : List (LayoutClient K)) : List (LayoutResult K) :=
  centeredColumns params clients true

def calculateThreeCol (params : LayoutParams) (clients : List (LayoutClient K)) : List (LayoutResult K) :=
  centeredColumns params clients false

/-! ## Every other client -/

variable {α : Type} {clients clients' stack : List (LayoutClient K)} {area : Rect} {results results' : List (LayoutResult K)}
    {w gap : Int} {params : LayoutParams} {heights : BstackHeights}

theorem everyOther_cons (a : α) : ∀ rest : List α, everyOther (a :: rest) = a :: everyOther (rest.drop 1)
  | [] => rfl
  | _ :: _ => rfl

theorem everyOther_perm : ∀ l : List α, (everyOther l ++ everyOther (l.drop 1)).Perm l
  | [] => List.Perm.refl _
  | [a] => List.Perm.refl _
  | a :: b :: rest => by
    rw [everyOther, drop_succ_cons, drop_zero, everyOther_cons b, cons_append]
    exact (perm_middle.trans ((everyOther_perm rest).cons b)).cons a

theorem Borderless.everyOther (h : Borderless clients) : Borderless (everyOther clients) :=
  fun c hc => h c ((everyOther_perm clients).mem_iff.1 (mem_append_left _ hc))

/-! ## Arranged -/

/-- One result for each client, of at least a pixel, in the area and apart from the others. -/
structure Arranged (clients : List (LayoutClient K)) (area : Rect) (results : List (LayoutResult K)) : Prop where
  keys : (results.map LayoutResult.key).Perm (clients.map LayoutClient.key)
  tiles : Tiles results area

theorem Arranged.append {area' whole : Rect} (h : Arranged clients area results) (h' : Arranged clients' area' results')
    (happart : area.Apart area') (hwithin : area.Within whole) (hwithin' : area'.Within whole) :
    Arranged (clients ++ clients') whole (results ++ results') := by
  refine ⟨?_, h.tiles.append h'.tiles happart hwithin hwithin'⟩
  rw [map_append, map_append]
  exact h.keys.append h'.keys

theorem Arranged.perm (h : Arranged clients area results) (hperm : clients.Perm clients') : Arranged clients' area results :=
  ⟨h.keys.trans (hperm.map _), h.tiles⟩

theorem Arranged.reorder
    (h : Arranged clients area results) (hperm : results'.Perm results) : Arranged clients area results' := by
  obtain ⟨hkeys, hwithin, hpositive, happart⟩ := h
  refine ⟨(hperm.map _).trans hkeys, fun r hr => hwithin r (hperm.mem_iff.1 hr), fun r hr => hpositive r (hperm.mem_iff.1 hr), ?_⟩
  exact (hperm.pairwise_iff fun {a b} hab => Rect.Apart.symm hab).2 happart

theorem pushFactorRow_arranged {x y h : Int} (hborder : Borderless clients)
    (hfit : (clients.length : Int) ≤ w) (hmax : w ≤ I32.max) (hh : 1 ≤ h) (hh' : h ≤ I32.max) :
    Arranged clients ⟨x, y, w, h⟩ (pushFactorRow clients x y w h gap) := by
  have htiles := @pushFactorRow_tiles _ _ x y w h gap hborder hfit hmax (by omega) hh'
  rw [max_eq_left hh] at htiles
  exact ⟨by rw [pushFactorRow_keys], htiles⟩

theorem pushFactorColumn_arranged {clients : List (LayoutClient K)} {x y w h gap : Int} (hborder : Borderless clients)
    (hfit : (clients.length : Int) ≤ h) (hmax : h ≤ I32.max) (hw : 1 ≤ w) (hw' : w ≤ I32.max) :
    Arranged clients ⟨x, y, w, h⟩ (pushFactorColumn clients x y w h gap) := by
  have htiles := @pushFactorColumn_tiles _ _ x y w h gap hborder hfit hmax (by omega) hw'
  rw [max_eq_left hw] at htiles
  exact ⟨by rw [pushFactorColumn_keys], htiles⟩

/-! ## Bottom stack -/

/-- The heights of `stackRows` rows below the masters: each row keeps a pixel. -/
structure HeightsFit (extent stackRows : Int) (heights : BstackHeights) : Prop where
  gap : 0 ≤ heights.rowGap
  master : 1 ≤ heights.master
  total : heights.master + heights.rowGap + heights.stackTotal = extent
  cell : 1 ≤ heights.stackCell
  last : (stackRows - 1) * (heights.stackCell + heights.rowGap) + 1 ≤ heights.stackTotal

theorem bstackHeights_fit {stackRows : Int} (hrows : stackRows = 1 ∨ stackRows = 2)
    (htall : 3 ≤ params.area.h) : HeightsFit params.area.h stackRows (bstackHeights params true stackRows) := by
  obtain ⟨-, -, hmax⟩ := params.area_sides
  have hcount : ((1 + stackRows.toNat : Nat) : Int) = 1 + stackRows := by omega
  obtain ⟨hgap, hgaps⟩ := @fittingInnerGap_spec params.area.h (1 + stackRows.toNat) params.innerGap (by omega)
    (by omega) hmax
  unfold bstackHeights
  dsimp only
  rw [if_pos rfl, if_pos rfl]
  generalize fittingInnerGap params.area.h (1 + stackRows.toNat) params.innerGap = rowGap at hgap hgaps ⊢
  rw [hcount, show 1 + stackRows - 1 = stackRows by omega] at hgaps
  generalize F32.toI32 (F32.ofI32 (params.area.h - rowGap) * params.mFact) = product
  have hadd : I32.saturatingAdd rowGap 1 = rowGap + 1 :=
    I32.clamp_eq (by unfold I32.min; omega) (by rcases hrows with rfl | rfl <;> omega)
  have hmul : I32.saturatingMul stackRows (rowGap + 1) = stackRows * (rowGap + 1) := by
    refine I32.clamp_eq ?_ ?_
    · unfold I32.min
      rcases hrows with rfl | rfl <;> omega
    · rcases hrows with rfl | rfl <;> omega
  rw [hadd, hmul]
  obtain ⟨hmh, hmh'⟩ := @I32.clampTo_spec 1 (max (params.area.h - stackRows * (rowGap + 1)) 1) (by omega) product
  generalize I32.clampTo product 1 (max (params.area.h - stackRows * (rowGap + 1)) 1) = mh at hmh hmh' ⊢
  rcases hrows with rfl | rfl
  · refine ⟨hgap, hmh, ?_, le_max_right _ _, ?_⟩
    · dsimp only
      omega
    · dsimp only
      omega
  · refine ⟨hgap, hmh, ?_, le_max_right _ _, ?_⟩
    · dsimp only
      omega
    · rw [show max ((2 : Int) - 1) 0 = 1 from rfl, show max (2 : Int) 1 = 2 from rfl, Int.one_mul]
      dsimp only
      omega

theorem bstackRow_single (hne : stack ≠ []) (hfew : ¬4 < (stack.length : Int)) (htotal : 1 ≤ heights.stackTotal) :
    bstackRow params stack heights stack.length 1 (bstackCols stack.length) 0 =
      pushFactorRow stack params.area.x (params.area.y + heights.master + heights.rowGap) params.area.w heights.stackTotal
        params.innerGap := by
  have hlength := length_pos_iff.2 hne
  unfold bstackRow
  dsimp only
  rw [Nat.cast_zero, Int.zero_mul, Int.zero_mul, Int.toNat_zero, if_neg (by omega), if_pos (by decide), if_pos (by decide),
    Int.sub_zero, Int.sub_zero, max_eq_left (by omega), max_eq_left htotal, Int.toNat_natCast, Nat.zero_add, Nat.min_self,
    take_length, drop_zero, Int.add_zero]

theorem bstackCols_two {n : Nat} (hmany : 4 < (n : Int)) : bstackCols n = ((n + 1) / 2 : Nat) := by
  unfold bstackCols bstackRows
  rw [if_pos (by omega), if_pos hmany]
  omega

theorem bstackRow_first (hmany : 4 < (stack.length : Int)) :
    bstackRow params stack heights stack.length 2 (bstackCols stack.length) 0 =
      pushFactorRow (stack.take ((stack.length + 1) / 2)) params.area.x (params.area.y + heights.master + heights.rowGap)
        params.area.w heights.stackCell params.innerGap := by
  unfold bstackRow
  dsimp only
  rw [bstackCols_two hmany, Nat.cast_zero, Int.zero_mul, Int.zero_mul, Int.toNat_zero, if_neg (by omega), if_neg (by decide),
    if_neg (by decide), Int.toNat_natCast, Nat.zero_add, Nat.min_eq_left (by omega), drop_zero, Int.add_zero]

theorem bstackRow_second
    (hmany : 4 < (stack.length : Int)) (hlast : heights.stackCell + heights.rowGap + 1 ≤ heights.stackTotal) :
    bstackRow params stack heights stack.length 2 (bstackCols stack.length) 1 =
      pushFactorRow (stack.drop ((stack.length + 1) / 2)) params.area.x
        (params.area.y + heights.master + heights.rowGap + (heights.stackCell + heights.rowGap)) params.area.w
        (heights.stackTotal - (heights.stackCell + heights.rowGap)) params.innerGap := by
  unfold bstackRow
  dsimp only
  rw [bstackCols_two hmany, Nat.cast_one, Int.one_mul, Int.one_mul, Int.toNat_natCast, if_neg (by omega), if_pos (by decide),
    if_pos (by decide), max_eq_left (by omega), max_eq_left (by omega), Nat.min_eq_right (by omega), take_length]

/-- No row of the bottom stack has more clients than pixels; its first row is its longest. -/
structure BstackFits (params : LayoutParams) (clients : List (LayoutClient K)) : Prop where
  masters : ((clients.take params.nMaster).length : Int) ≤ params.area.w
  stack : bstackCols ((clients.drop params.nMaster).length : Int) ≤ params.area.w

theorem bstackStack_arranged
    (hborder : Borderless stack) (hne : stack ≠ []) (hfit : bstackCols (stack.length : Int) ≤ params.area.w)
    (hheights : HeightsFit params.area.h (bstackRows stack.length) heights) :
    Arranged stack
      ⟨params.area.x, params.area.y + heights.master + heights.rowGap, params.area.w, heights.stackTotal⟩
      ((List.range (bstackRows stack.length).toNat).flatMap
        (bstackRow params stack heights stack.length (bstackRows stack.length) (bstackCols stack.length))) := by
  obtain ⟨⟨hw, hw'⟩, hh, hh'⟩ := params.area_sides
  have hlength := length_pos_iff.2 hne
  by_cases hmany : 4 < (stack.length : Int)
  · have hrows : bstackRows stack.length = 2 := if_pos hmany
    rw [bstackCols_two hmany] at hfit
    rw [hrows] at hheights ⊢
    obtain ⟨hgap, hmaster, htotal, hcell, hlast⟩ := hheights
    have hrange : range (2 : Int).toNat = [0, 1] := rfl
    rw [hrange, flatMap_cons, flatMap_cons, flatMap_nil, append_nil, bstackRow_first hmany,
      bstackRow_second hmany (by omega)]
    conv => arg 1; rw [← take_append_drop ((stack.length + 1) / 2) stack]
    refine (pushFactorRow_arranged (hborder.take _) ?_ hw' hcell (by omega)).append
      (pushFactorRow_arranged (hborder.drop _) ?_ hw' (by omega) (by omega)) (.inr (.inr (.inl ?_))) ?_ ?_
    · rw [length_take]
      omega
    · rw [length_drop]
      omega
    · dsimp only
      omega
    · exact ⟨Int.le_refl _, Int.le_refl _, Int.le_refl _, by dsimp only; omega⟩
    · exact ⟨Int.le_refl _, by dsimp only; omega, Int.le_refl _, by dsimp only; omega⟩
  · have hrows : bstackRows stack.length = 1 := if_neg hmany
    have hcols : bstackCols stack.length = stack.length := by
      unfold bstackCols
      rw [if_pos (by omega), hrows]
      omega
    rw [hrows] at hheights ⊢
    obtain ⟨hgap, hmaster, htotal, hcell, hlast⟩ := hheights
    have hrange : range (1 : Int).toNat = [0] := rfl
    rw [hrange, flatMap_cons, flatMap_nil, append_nil, bstackRow_single hne hmany (by omega)]
    exact pushFactorRow_arranged hborder (by omega) hw' (by omega) (by omega)

theorem calculateBstack_arranged (hmasters : 1 ≤ params.nMaster)
    (htall : 3 ≤ params.area.h) (hborder : Borderless clients) (hfits : BstackFits params clients) :
    Arranged clients params.area (calculateBstack params clients) := by
  obtain ⟨⟨hw, hw'⟩, hh, hh'⟩ := params.area_sides
  obtain ⟨hrow, hstack⟩ := hfits
  unfold calculateBstack
  dsimp only
  rw [if_neg (by omega), ← length_drop]
  by_cases hnil : clients.drop params.nMaster = []
  · have hall : clients.take params.nMaster = clients := take_of_length_le (drop_eq_nil_iff.1 hnil)
    rw [hall] at hrow
    rw [hnil, hall]
    -- no stack: the masters take the whole height
    change Arranged clients params.area (pushFactorRow clients params.area.x params.area.y params.area.w params.area.h
      params.innerGap ++ [])
    rw [append_nil]
    exact pushFactorRow_arranged hborder hrow hw' hh hh'
  · have hlength := length_pos_iff.2 hnil
    have hhas : (decide (0 < ((clients.drop params.nMaster).length : Int)) && decide (0 < min clients.length params.nMaster)) =
        true := by
      rw [length_drop] at hlength ⊢
      rw [decide_eq_true (by omega), decide_eq_true (by omega)]
      rfl
    have hrows : bstackRows (clients.drop params.nMaster).length = 1 ∨ bstackRows (clients.drop params.nMaster).length = 2 := by
      unfold bstackRows
      omega
    have hheights := bstackHeights_fit hrows htall
    rw [hhas]
    have hbelow := bstackStack_arranged (hborder.drop _) hnil hstack hheights
    generalize bstackHeights params true (bstackRows (clients.drop params.nMaster).length) = heights at hheights hbelow ⊢
    obtain ⟨hgap, hmaster, htotal, hcell, hlast⟩ := hheights
    have htotal' : 1 ≤ heights.stackTotal := by
      rcases hrows with hrows | hrows
      · rw [hrows] at hlast
        omega
      · rw [hrows] at hlast
        omega
    conv => arg 1; rw [← take_append_drop params.nMaster clients]
    refine (pushFactorRow_arranged (hborder.take _) hrow hw' hmaster (by omega)).append hbelow (.inr (.inr (.inl ?_))) ?_ ?_
    · dsimp only
      omega
    · exact ⟨Int.le_refl _, Int.le_refl _, Int.le_refl _, by dsimp only; omega⟩
    · exact ⟨Int.le_refl _, by dsimp only; omega, Int.le_refl _, by dsimp only; omega⟩

/-! ## Columns around the masters -/

/-- No row or column has more clients than pixels. -/
structure ColumnsFit (params : LayoutParams) (clients : List (LayoutClient K)) : Prop where
  single : clients.length ≤ params.nMaster → (clients.length : Int) ≤ params.area.h
  rows : params.nMaster < clients.length → params.area.w < params.area.h → BstackFits params clients
  masters : params.nMaster < clients.length → params.area.h ≤ params.area.w →
    ((clients.take params.nMaster).length : Int) ≤ params.area.h
  sides : params.nMaster + 1 < clients.length → params.area.h ≤ params.area.w →
    ((everyOther (clients.drop params.nMaster)).length : Int) ≤ params.area.h ∧
      ((everyOther ((clients.drop params.nMaster).drop 1)).length : Int) ≤ params.area.h

/-- A lone stack client beside the masters, and no more than a pixel beyond the gap for both. -/
def LoneStackCrushed (params : LayoutParams) (clients : List (LayoutClient K)) : Prop :=
  clients.length = params.nMaster + 1 ∧ params.area.h ≤ params.area.w ∧ params.area.w - params.innerGap < 2

theorem three_columns {columnGap contentW : Int} (hwide : 3 ≤ w) (hmax : w ≤ I32.max) (hgap : fittingInnerGap w 3 gap = columnGap)
    (hcontent : max (I32.saturatingSub w (I32.saturatingMul columnGap 2)) 3 = contentW) :
    0 ≤ columnGap ∧ contentW + 2 * columnGap = w ∧ 3 ≤ contentW := by
  obtain ⟨hnonneg, hgaps⟩ := @fittingInnerGap_spec w 3 gap (by decide) hwide hmax
  rw [hgap] at hnonneg hgaps
  have hmul : I32.saturatingMul columnGap 2 = columnGap * 2 := by
    refine I32.clamp_eq ?_ (by omega)
    unfold I32.min
    omega
  rw [hmul, I32.saturatingSub_eq (by omega) (by omega) hmax (by omega)] at hcontent
  omega

theorem centeredColumns_arranged (shrinkMaster : Bool)
    (hmasters : 1 ≤ params.nMaster) (hnan : params.mFact.toModel.isNaN = false) (hwide : 3 ≤ params.area.w)
    (htall : 3 ≤ params.area.h) (hborder : Borderless clients) (hfits : ColumnsFit params clients)
    (hcrushed : ¬LoneStackCrushed params clients) :
    Arranged clients params.area (centeredColumns params clients shrinkMaster) := by
  obtain ⟨⟨hw, hw'⟩, hh, hh'⟩ := params.area_sides
  have hgap := params.innerGap_nonneg
  obtain ⟨hsingle, hrows, hmaster, hsides⟩ := hfits
  unfold centeredColumns
  dsimp only
  rw [if_neg (by omega)]
  split
  · exact pushFactorColumn_arranged hborder (hsingle (by omega)) hh' hw hw'
  · rename_i hstack
    split
    · rename_i hportrait
      exact calculateBstack_arranged hmasters htall hborder (hrows (by omega) hportrait)
    · rename_i hlandscape
      have hmaster := hmaster (by omega) (by omega)
      conv => arg 1; rw [← take_append_drop params.nMaster clients]
      split
      · rename_i hone
        have hroom : 2 ≤ params.area.w - params.innerGap := by
          by_contra hcrush
          exact hcrushed ⟨by omega, by omega, by omega⟩
        obtain ⟨m, e, hratio⟩ := F32.isRatio_clamp_narrow hnan
        obtain ⟨-, hproduct⟩ := F32.toI32_mul_ratio (n := params.area.w - params.innerGap) (by omega) (by omega) hratio
        have hmw := F32.one_le_toI32_max (F32.ofI32 (params.area.w - params.innerGap) * F32.clamp params.mFact 0.25 0.75)
        have hmw' := F32.toI32_max (F32.ofI32 (params.area.w - params.innerGap) * F32.clamp params.mFact 0.25 0.75)
        generalize F32.toI32 (F32.max (F32.ofI32 (params.area.w - params.innerGap) * F32.clamp params.mFact 0.25 0.75) 1.0) =
          mw at hmw hmw'
        rw [max_eq_left (show 1 ≤ params.area.w - mw - params.innerGap by omega)]
        refine (pushFactorColumn_arranged (hborder.take _) hmaster hh' hmw (by omega)).append
          (pushFactorColumn_arranged (hborder.drop _) ?_ hh' (by omega) (by omega)) (.inl ?_) ?_ (within_right (by omega) hgap)
        · rw [length_drop]
          omega
        · dsimp only
          omega
        · exact ⟨Int.le_refl _, Int.le_refl _, by dsimp only; omega, Int.le_refl _⟩
      · rename_i hmany
        obtain ⟨hleft, hright⟩ := hsides (by omega) (by omega)
        generalize hcolumnGap : fittingInnerGap params.area.w 3 params.innerGap = columnGap
        generalize hcontent : max (I32.saturatingSub params.area.w (I32.saturatingMul columnGap 2)) 3 = contentW
        obtain ⟨hgap', hwidths, hcontent'⟩ := three_columns hwide hw' hcolumnGap hcontent
        generalize F32.toI32 (F32.ofI32 contentW * F32.clamp params.mFact 0.25 0.75 * _) = product
        obtain ⟨hmw, hmw'⟩ := I32.clampTo_spec (show 1 ≤ contentW - 2 by omega) product
        generalize I32.clampTo product 1 (contentW - 2) = mw at hmw hmw' ⊢
        rw [max_eq_left (show 2 ≤ contentW - mw by omega), max_eq_left (show 1 ≤ (contentW - mw) / 2 by omega),
          max_eq_left (show 1 ≤ contentW - mw - (contentW - mw) / 2 by omega)]
        have hhalf : 1 ≤ (contentW - mw) / 2 := by omega
        have hhalves : (contentW - mw) / 2 + 1 ≤ contentW - mw := by omega
        generalize (contentW - mw) / 2 = leftW at hhalf hhalves ⊢
        have hmasterColumn := @pushFactorColumn_arranged _ _ (params.area.x + leftW + columnGap) params.area.y mw params.area.h
          params.innerGap (hborder.take params.nMaster) hmaster hh' hmw (by omega)
        have hleftColumn := @pushFactorColumn_arranged _ _ params.area.x params.area.y leftW params.area.h params.innerGap
          (hborder.drop params.nMaster).everyOther hleft hh' hhalf (by omega)
        have hrightColumn := @pushFactorColumn_arranged _ _ (params.area.x + leftW + columnGap + mw + columnGap) params.area.y
          (contentW - mw - leftW) params.area.h params.innerGap ((hborder.drop params.nMaster).drop 1).everyOther hright hh'
          (by omega) (by omega)
        -- the left column, and beside it the other two
        have hinner := hmasterColumn.append hrightColumn (.inl (by dsimp only; omega))
          (show Rect.Within _ ⟨params.area.x + leftW + columnGap, params.area.y, params.area.w - leftW - columnGap, params.area.h⟩ from
            ⟨Int.le_refl _, Int.le_refl _, by dsimp only; omega, Int.le_refl _⟩)
          ⟨by dsimp only; omega, Int.le_refl _, by dsimp only; omega, Int.le_refl _⟩
        have hcolumns := hleftColumn.append hinner (.inl (by dsimp only; omega))
          (show Rect.Within _ params.area from ⟨Int.le_refl _, Int.le_refl _, by dsimp only; omega, Int.le_refl _⟩)
          (within_right (by omega) hgap')
        refine (hcolumns.perm ?_).reorder (perm_append_comm_assoc _ _ _)
        exact (perm_append_comm_assoc _ _ _).trans ((everyOther_perm _).append_left _)

theorem centeredColumns_crushed (shrinkMaster : Bool)
    (hmasters : 1 ≤ params.nMaster) (hcrushed : LoneStackCrushed params clients) :
    ¬Arranged clients params.area (centeredColumns params clients shrinkMaster) := by
  obtain ⟨hlone, hlandscape, hroom⟩ := hcrushed
  intro harranged
  have hwithin := harranged.tiles.within
  obtain ⟨c, hc⟩ : ∃ c, clients.drop params.nMaster = [c] := by
    refine length_eq_one_iff.1 ?_
    rw [length_drop]
    omega
  have hmw := F32.one_le_toI32_max (F32.ofI32 (params.area.w - params.innerGap) * F32.clamp params.mFact 0.25 0.75)
  unfold centeredColumns at hwithin
  rw [if_neg (by omega), if_neg (by omega), if_neg (by omega), if_pos (by omega), hc] at hwithin
  generalize F32.toI32 (F32.max (F32.ofI32 (params.area.w - params.innerGap) * F32.clamp params.mFact 0.25 0.75) 1.0) =
    mw at hmw hwithin
  have hmem : ∃ r ∈ pushFactorColumn [c] (params.area.x + mw + params.innerGap) params.area.y
      (max (params.area.w - mw - params.innerGap) 1) params.area.h params.innerGap,
      r.rect.x = params.area.x + mw + params.innerGap ∧ 1 ≤ r.rect.w := by
    exact ⟨_, mem_cons_self, rfl, le_max_right _ _⟩
  obtain ⟨r, hr, hx, hpos⟩ := hmem
  have hright := (hwithin r (mem_append_right _ hr)).right
  omega

/-! ## The three layouts -/

/-- Bottom stack, centered master and three columns keep every client inside and apart. -/
structure KeepsApart (params : LayoutParams) (clients : List (LayoutClient K)) : Prop where
  bstack : BstackFits params clients → Arranged clients params.area (calculateBstack params clients)
  centeredMaster : ColumnsFit params clients → Arranged clients params.area (calculateCenteredMaster params clients)
  threeCol : ColumnsFit params clients → Arranged clients params.area (calculateThreeCol params clients)

/-- The layouts keep inside and apart but for a lone stack client beside a gap that takes the width. -/
theorem keepsApart_iff (params : LayoutParams) (clients : List (LayoutClient K)) (hmasters : 1 ≤ params.nMaster)
    (hfinite : params.mFact.toModel.isFinite = true) (hwide : 3 ≤ params.area.w) (htall : 3 ≤ params.area.h)
    (hborder : Borderless clients) :
    KeepsApart params clients ↔ ¬(ColumnsFit params clients ∧ LoneStackCrushed params clients) := by
  have hnan : params.mFact.toModel.isNaN = false := by
    unfold Float32.Model.isFinite at hfinite
    unfold Float32.Model.isNaN
    cases hunpack : params.mFact.toModel.unpack with
    | notANumber =>
      rw [hunpack] at hfinite
      cases hfinite
    | infinity sign | zero sign | finite sign m e hm => rfl
  constructor
  · rintro ⟨-, hcentered, -⟩ ⟨hfits, hcrushed⟩
    exact centeredColumns_crushed true hmasters hcrushed (hcentered hfits)
  · intro hcrushed
    refine ⟨fun hfits => calculateBstack_arranged hmasters htall hborder hfits, fun hfits => ?_, fun hfits => ?_⟩
    · exact centeredColumns_arranged true hmasters hnan hwide htall hborder hfits fun h => hcrushed ⟨hfits, h⟩
    · exact centeredColumns_arranged false hmasters hnan hwide htall hborder hfits fun h => hcrushed ⟨hfits, h⟩

/-- A screen of a hundred by a hundred with a gap of forty: an area of twenty by twenty. -/
def Sample.gapParams : LayoutParams := ⟨⟨0, 0, 100, 100⟩, 1, 0.5, 40⟩

/-- The stack client lies beyond the area's right edge at 60. -/
theorem lone_stack_beyond :
    (1 ≤ Sample.gapParams.nMaster ∧ Sample.gapParams.mFact.toModel.isFinite = true ∧ Borderless Sample.pair) ∧
      Sample.gapParams.area = ⟨40, 40, 20, 20⟩ ∧
      (calculateThreeCol Sample.gapParams Sample.pair).map LayoutResult.rect = [⟨40, 40, 1, 20⟩, ⟨81, 40, 1, 20⟩] ∧
      ¬KeepsApart Sample.gapParams Sample.pair := by
  refine ⟨⟨by decide, by decide +kernel, by decide⟩, by decide +kernel, by decide +kernel, fun h => ?_⟩
  have hfits : ColumnsFit Sample.gapParams Sample.pair :=
    ⟨fun h => absurd h (by decide), fun _ h => absurd h (by decide +kernel), fun _ _ => by decide +kernel,
      fun h => absurd h (by decide)⟩
  have hwithin := (h.threeCol hfits).tiles.within ⟨1, ⟨81, 40, 1, 20⟩⟩ (by decide +kernel)
  exact absurd hwithin.right (by decide +kernel)

def Sample.seven : List (LayoutClient Nat) := (List.range 7).map fun i => ⟨i, 1.0, 0⟩

theorem keepsApart_iff_seven :
    (calculateBstack Sample.wideParams Sample.seven).map LayoutResult.rect =
        [⟨2, 2, 26, 7⟩, ⟨2, 11, 7, 2⟩, ⟨11, 11, 7, 2⟩, ⟨20, 11, 8, 2⟩, ⟨2, 15, 7, 3⟩, ⟨11, 15, 7, 3⟩, ⟨20, 15, 8, 3⟩] ∧
      (KeepsApart Sample.wideParams Sample.seven ↔
        ¬(ColumnsFit Sample.wideParams Sample.seven ∧ LoneStackCrushed Sample.wideParams Sample.seven)) :=
  ⟨by decide +kernel, keepsApart_iff Sample.wideParams Sample.seven (by decide) (by decide +kernel) (by decide +kernel)
    (by decide +kernel) (by decide)⟩

end Jwm.Layout
