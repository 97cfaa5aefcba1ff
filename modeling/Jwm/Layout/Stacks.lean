/-
Layouts that put the stack beside or below the masters on one side (`calculate_tile`, `calculate_fibonacci`,
`calculate_deck`).
-/
import Jwm.Layout.FactorRows
import Jwm.Layout.Ratios

namespace Jwm.Layout

open List F32

variable {K : Type}

/-! ## The source -/

def LayoutParams.innerGap (params : LayoutParams) : Int := boundedGap params.screenArea params.gap

def LayoutParams.area (params : LayoutParams) : Rect := usableArea params.screenArea params.innerGap

/-- `has_stack`: there are masters, and clients beyond them. -/
def HasStack (params : LayoutParams) (clients : List (LayoutClient K)) : Prop :=
  params.nMaster < clients.length ∧ 0 < params.nMaster

instance (params : LayoutParams) (clients : List (LayoutClient K)) : Decidable (HasStack params clients) :=
  inferInstanceAs (Decidable (_ ∧ _))

def calculateTile (params : LayoutParams) (clients : List (LayoutClient K)) : List (LayoutResult K) :=
  let gap := params.innerGap
  let area := params.area
  if params.nMaster = 0 then pushFactorColumn clients area.x area.y area.w area.h gap
  else if HasStack params clients ∧ area.w < area.h then
    let mh := toI32 (ofI32 (area.h - gap) * clamp params.mFact 0.05 0.95)
    let sh := max (area.h - mh - gap) 1
    pushFactorRow (clients.take params.nMaster) area.x area.y area.w mh gap ++
      pushFactorRow (clients.drop params.nMaster) area.x (area.y + mh + gap) area.w sh gap
  else
    let mw := if HasStack params clients then toI32 (ofI32 (area.w - gap) * clamp params.mFact 0.05 0.95)
      else area.w
    let stackW := max (area.w - mw - gap) 1
    pushFactorColumn (clients.take params.nMaster) area.x area.y mw area.h gap ++
      pushFactorColumn (clients.drop params.nMaster) (area.x + mw + gap) area.y stackW area.h gap

/-- The stack's part of the loop, over the region that is left: every split hands out the upper or left half of it. -/
def fibonacciStack (gap : Int) : Nat → Bool → Rect → List (LayoutClient K) → List (LayoutResult K)
  | _, _, _, [] => []
  | stackIdx, splittingStopped, s, c :: rest =>
    let splitExtent := if stackIdx % 2 = 0 then s.h else s.w
    let splittingStopped := splittingStopped || decide (splitExtent < I32.saturatingAdd gap 2)
    if splittingStopped || rest.isEmpty then
      { key := c.key, rect := clientRect s.x s.y s.w s.h c.borderW } ::
        fibonacciStack gap (stackIdx + 1) splittingStopped s rest
    else if stackIdx % 2 = 0 then
      let h := (s.h - gap) / 2
      { key := c.key, rect := clientRect s.x s.y s.w h c.borderW } ::
        fibonacciStack gap (stackIdx + 1) splittingStopped ⟨s.x, s.y + (h + gap), s.w, s.h - (h + gap)⟩ rest
    else
      let w := (s.w - gap) / 2
      { key := c.key, rect := clientRect s.x s.y w s.h c.borderW } ::
        fibonacciStack gap (stackIdx + 1) splittingStopped ⟨s.x + (w + gap), s.y, s.w - (w + gap), s.h⟩ rest

def fibonacciRegion (params : LayoutParams) (clientCount : Nat) (area : Rect) (gap : Int) : Rect :=
  let hasStack := params.nMaster < clientCount
  let mw := if hasStack then toI32 (ofI32 (area.w - gap) * clamp params.mFact 0.05 0.95) else area.w
  if 0 < params.nMaster then ⟨area.x + mw + gap, area.y, area.w - mw - gap, area.h⟩ else area

def calculateFibonacci (params : LayoutParams) (clients : List (LayoutClient K)) : List (LayoutResult K) :=
  let gap := params.innerGap
  let area := params.area
  let hasStack := params.nMaster < clients.length
  let mw := if hasStack then toI32 (ofI32 (area.w - gap) * clamp params.mFact 0.05 0.95) else area.w
  -- the masters come first in the loop and share out the height as a column does
  pushFactorColumn (clients.take params.nMaster) area.x area.y mw area.h gap ++
    fibonacciStack gap 0 false (fibonacciRegion params clients.length area gap) (clients.drop params.nMaster)

def calculateDeck (params : LayoutParams) (clients : List (LayoutClient K)) : List (LayoutResult K) :=
  let gap := params.innerGap
  let area := params.area
  if params.nMaster = 0 then pushDeckPreviews clients area.x area.y area.w area.h gap
  else if HasStack params clients ∧ area.w < area.h then
    let mh := toI32 (F32.max (ofI32 (area.h - gap) * clamp params.mFact 0.25 0.75) 1.0)
    let sh := max (area.h - mh - gap) 1
    pushFactorRow (clients.take params.nMaster) area.x area.y area.w mh gap ++
      pushDeckPreviews (clients.drop params.nMaster) area.x (area.y + mh + gap) area.w sh gap
  else
    let mw := if HasStack params clients then toI32 (ofI32 (area.w - gap) * params.mFact) else area.w
    pushFactorColumn (clients.take params.nMaster) area.x area.y mw area.h gap ++
      pushDeckPreviews (clients.drop params.nMaster) (area.x + mw + gap) area.y (area.w - mw - gap) area.h gap

/-! ## Inside the usable area -/

/-- One result for each client in order, of at least a pixel and in the area. -/
structure Contained (clients : List (LayoutClient K)) (area : Rect) (results : List (LayoutResult K)) : Prop where
  keys : results.map LayoutResult.key = clients.map LayoutClient.key
  within : ∀ r ∈ results, r.rect.Within area
  positive : ∀ r ∈ results, r.rect.Positive

variable {clients : List (LayoutClient K)}

theorem Contained.append {clients' : List (LayoutClient K)} {area area' whole : Rect}
    {results results' : List (LayoutResult K)} (h : Contained clients area results) (h' : Contained clients' area' results')
    (hwithin : area.Within whole) (hwithin' : area'.Within whole) :
    Contained (clients ++ clients') whole (results ++ results') := by
  refine ⟨?_, fun r hr => ?_, fun r hr => ?_⟩
  · rw [map_append, map_append, h.keys, h'.keys]
  · rcases mem_append.1 hr with hr | hr
    · exact (h.within r hr).trans hwithin
    · exact (h'.within r hr).trans hwithin'
  · rcases mem_append.1 hr with hr | hr
    · exact h.positive r hr
    · exact h'.positive r hr

theorem Contained.nil (area : Rect) : Contained ([] : List (LayoutClient K)) area [] := ⟨rfl, nofun, nofun⟩

theorem Borderless.take (h : Borderless clients) (n : Nat) : Borderless (clients.take n) :=
  fun c hc => h c (mem_of_mem_take hc)

theorem Borderless.drop (h : Borderless clients) (n : Nat) : Borderless (clients.drop n) :=
  fun c hc => h c (mem_of_mem_drop hc)

section

variable {x y w h gap : Int} (hborder : Borderless clients)
include hborder

theorem pushFactorRow_contained (hfit : (clients.length : Int) ≤ w) (hmax : w ≤ I32.max) (hh : 0 ≤ h) (hh' : h ≤ I32.max) :
    Contained clients ⟨x, y, w, max h 1⟩ (pushFactorRow clients x y w h gap) :=
  have htiles := pushFactorRow_tiles hborder hfit hmax hh hh'
  ⟨pushFactorRow_keys clients x y w h gap, htiles.within, htiles.positive⟩

theorem pushFactorColumn_contained (hfit : (clients.length : Int) ≤ h) (hmax : h ≤ I32.max) (hw : 0 ≤ w) (hw' : w ≤ I32.max) :
    Contained clients ⟨x, y, max w 1, h⟩ (pushFactorColumn clients x y w h gap) :=
  have htiles := pushFactorColumn_tiles hborder hfit hmax hw hw'
  ⟨pushFactorColumn_keys clients x y w h gap, htiles.within, htiles.positive⟩

theorem pushDeckPreviews_contained (hw : 1 ≤ w) (hw' : w ≤ I32.max) (hh : 1 ≤ h) (hh' : h ≤ I32.max) :
    Contained clients ⟨x, y, w, h⟩ (pushDeckPreviews clients x y w h gap) := by
  have hoffset : max (I32.saturatingSub (min w h) 1) 0 = min w h - 1 := by
    rw [I32.saturatingSub_eq (by omega) (by decide) (by omega) (by decide)]
    omega
  have hstep := I32.clampTo_spec (show (6 : Int) ≤ 16 by decide) gap
  have hrects : ∀ r ∈ pushDeckPreviews clients x y w h gap, r.rect.Within ⟨x, y, w, h⟩ ∧ r.rect.Positive := by
    intro r hr
    unfold pushDeckPreviews at hr
    dsimp only at hr
    obtain ⟨i, hi⟩ := mem_iff_getElem?.1 hr
    rw [getElem?_mapIdx] at hi
    obtain ⟨c, hc, rfl⟩ := Option.map_eq_some_iff.1 hi
    have hnonneg : 0 ≤ ((min i 5 : Nat) : Int) * I32.clampTo gap 6 16 := Int.mul_nonneg (by omega) (by omega)
    rw [hoffset]
    rw [hborder c (mem_of_getElem? hc)]
    generalize ((min i 5 : Nat) : Int) * I32.clampTo gap 6 16 = offset at hnonneg
    rw [clientRect_borderless (by omega) (by omega) (by omega) (by omega)]
    exact ⟨⟨by dsimp only; omega, by dsimp only; omega, by dsimp only; omega, by dsimp only; omega⟩,
      le_max_right _ _, le_max_right _ _⟩
  exact ⟨mapIdx_keys clients _, fun r hr => (hrects r hr).1, fun r hr => (hrects r hr).2⟩

end

/-! ## Tile -/

/-- Where the tile layout splits, there is more than the gap to split, and no line has more clients than pixels. -/
structure TileFits (params : LayoutParams) (clients : List (LayoutClient K)) : Prop where
  single : params.nMaster = 0 → (clients.length : Int) ≤ params.area.h
  rows : HasStack params clients → params.area.w < params.area.h → params.innerGap < params.area.h ∧
    ((clients.take params.nMaster).length : Int) ≤ params.area.w ∧ ((clients.drop params.nMaster).length : Int) ≤ params.area.w
  columns : 0 < params.nMaster → ¬(HasStack params clients ∧ params.area.w < params.area.h) →
    (HasStack params clients → params.innerGap < params.area.w) ∧
      ((clients.take params.nMaster).length : Int) ≤ params.area.h ∧ ((clients.drop params.nMaster).length : Int) ≤ params.area.h

variable {params : LayoutParams}

theorem drop_of_not_hasStack (hpos : 0 < params.nMaster)
    (h : ¬HasStack params clients) : clients.drop params.nMaster = [] := by
  refine drop_eq_nil_of_le ?_
  by_contra hlt
  exact h ⟨by omega, hpos⟩

section Halves

variable {area : Rect} {first gap : Int}

/-- The masters' side of a split, and the stack's: inside when the first leaves more than the gap. -/
theorem within_left (hwidth : 1 ≤ area.w) (hfirst : first ≤ area.w) : Rect.Within ⟨area.x, area.y, max first 1, area.h⟩ area :=
  ⟨Int.le_refl _, Int.le_refl _, by dsimp only; omega, Int.le_refl _⟩

theorem within_right (hfirst : 0 ≤ first) (hgap : 0 ≤ gap) :
    Rect.Within ⟨area.x + first + gap, area.y, area.w - first - gap, area.h⟩ area :=
  ⟨by dsimp only; omega, Int.le_refl _, by dsimp only; omega, Int.le_refl _⟩

theorem within_top (hheight : 1 ≤ area.h) (hfirst : first ≤ area.h) : Rect.Within ⟨area.x, area.y, area.w, max first 1⟩ area :=
  ⟨Int.le_refl _, Int.le_refl _, Int.le_refl _, by dsimp only; omega⟩

theorem within_bottom (hfirst : 0 ≤ first) (hgap : 0 ≤ gap) :
    Rect.Within ⟨area.x, area.y + first + gap, area.w, area.h - first - gap⟩ area :=
  ⟨Int.le_refl _, by dsimp only; omega, Int.le_refl _, by dsimp only; omega⟩

end Halves

theorem LayoutParams.area_sides (params : LayoutParams) :
    (1 ≤ params.area.w ∧ params.area.w ≤ I32.max) ∧ 1 ≤ params.area.h ∧ params.area.h ≤ I32.max :=
  usableArea_sides _ _

theorem LayoutParams.innerGap_nonneg (params : LayoutParams) : 0 ≤ params.innerGap := boundedGap_nonneg _ _

theorem calculateTile_contained
    (hnan : params.mFact.toModel.isNaN = false) (hborder : Borderless clients) (hfits : TileFits params clients) :
    Contained clients params.area (calculateTile params clients) := by
  obtain ⟨⟨hw, hw'⟩, hh, hh'⟩ := params.area_sides
  have hgap := params.innerGap_nonneg
  obtain ⟨hsingle, hrows, hcolumns⟩ := hfits
  obtain ⟨m, e, hratio⟩ := isRatio_clamp_wide hnan
  unfold calculateTile
  dsimp only
  split
  · rename_i hzero
    have hcolumn := @pushFactorColumn_contained _ _ params.area.x params.area.y params.area.w params.area.h params.innerGap
      hborder (hsingle hzero) hh' (by omega) hw'
    rwa [max_eq_left hw] at hcolumn
  · rename_i hzero
    conv => arg 1; rw [← take_append_drop params.nMaster clients]
    split
    · rename_i hportrait
      obtain ⟨hmore, hmasters, hstack⟩ := hrows hportrait.1 hportrait.2
      obtain ⟨hmh, hmh'⟩ := toI32_mul_ratio (n := params.area.h - params.innerGap) (by omega) (by omega) hratio
      generalize toI32 (ofI32 (params.area.h - params.innerGap) * clamp params.mFact 0.05 0.95) = mh at hmh hmh'
      have hmasterRow := @pushFactorRow_contained _ _ params.area.x params.area.y params.area.w mh params.innerGap
        (hborder.take _) hmasters hw' hmh (by omega)
      have hstackRow := @pushFactorRow_contained _ _ params.area.x (params.area.y + mh + params.innerGap) params.area.w
        (max (params.area.h - mh - params.innerGap) 1) params.innerGap (hborder.drop _) hstack hw' (by omega) (by omega)
      rw [max_eq_left (le_max_right _ _), max_eq_left (show 1 ≤ params.area.h - mh - params.innerGap by omega)] at hstackRow
      rw [max_eq_left (show 1 ≤ params.area.h - mh - params.innerGap by omega)]
      exact hmasterRow.append hstackRow (within_top hh (by omega)) (within_bottom hmh hgap)
    · rename_i hlandscape
      obtain ⟨hmore, hmasters, hrest⟩ := hcolumns (by omega) hlandscape
      by_cases hstack : HasStack params clients
      · rw [if_pos hstack]
        have hmore := hmore hstack
        obtain ⟨hmw, hmw'⟩ := toI32_mul_ratio (n := params.area.w - params.innerGap) (by omega) (by omega) hratio
        generalize toI32 (ofI32 (params.area.w - params.innerGap) * clamp params.mFact 0.05 0.95) = mw at hmw hmw'
        have hmasterColumn := @pushFactorColumn_contained _ _ params.area.x params.area.y mw params.area.h params.innerGap
          (hborder.take _) hmasters hh' hmw (by omega)
        have hstackColumn := @pushFactorColumn_contained _ _ (params.area.x + mw + params.innerGap) params.area.y
          (max (params.area.w - mw - params.innerGap) 1) params.area.h params.innerGap (hborder.drop _) hrest hh' (by omega)
          (by omega)
        rw [max_eq_left (le_max_right _ _), max_eq_left (show 1 ≤ params.area.w - mw - params.innerGap by omega)] at hstackColumn
        rw [max_eq_left (show 1 ≤ params.area.w - mw - params.innerGap by omega)]
        exact hmasterColumn.append hstackColumn (within_left hw (by omega)) (within_right hmw hgap)
      · rw [if_neg hstack, drop_of_not_hasStack (by omega) hstack]
        have hmasterColumn := @pushFactorColumn_contained _ _ params.area.x params.area.y params.area.w params.area.h
          params.innerGap (hborder.take params.nMaster) hmasters hh' (by omega) hw'
        exact hmasterColumn.append (Contained.nil params.area) (within_left hw (Int.le_refl _)) (Rect.Within.refl _)

/-! ## Deck -/

structure DeckFits (params : LayoutParams) (clients : List (LayoutClient K)) : Prop where
  rows : HasStack params clients → params.area.w < params.area.h →
    params.innerGap < params.area.h ∧ ((clients.take params.nMaster).length : Int) ≤ params.area.w
  columns : 0 < params.nMaster → ¬(HasStack params clients ∧ params.area.w < params.area.h) →
    (HasStack params clients → params.innerGap < params.area.w) ∧
      ((clients.take params.nMaster).length : Int) ≤ params.area.h

/-- The masters and the gap leave no row for the stack: `max(1.0)` gives the masters the only one. -/
def DeckCrushed (params : LayoutParams) (clients : List (LayoutClient K)) : Prop :=
  HasStack params clients ∧ params.area.w < params.area.h ∧ params.area.h - params.innerGap = 1

theorem calculateDeck_contained {m : Nat} {e : Int}
    (hratio : F32.IsRatio params.mFact m e) (hnan : params.mFact.toModel.isNaN = false) (hborder : Borderless clients)
    (hfits : DeckFits params clients) (hcrushed : ¬DeckCrushed params clients) :
    Contained clients params.area (calculateDeck params clients) := by
  obtain ⟨⟨hw, hw'⟩, hh, hh'⟩ := params.area_sides
  have hgap := params.innerGap_nonneg
  obtain ⟨hrows, hcolumns⟩ := hfits
  unfold calculateDeck
  dsimp only
  split
  · exact pushDeckPreviews_contained hborder hw hw' hh hh'
  · rename_i hzero
    conv => arg 1; rw [← take_append_drop params.nMaster clients]
    split
    · rename_i hportrait
      obtain ⟨hmore, hmasters⟩ := hrows hportrait.1 hportrait.2
      have htwo : 2 ≤ params.area.h - params.innerGap := by
        by_contra hone
        exact hcrushed ⟨hportrait.1, hportrait.2, by omega⟩
      obtain ⟨m', e', hratio'⟩ := isRatio_clamp_narrow hnan
      obtain ⟨-, hproduct⟩ := toI32_mul_ratio (n := params.area.h - params.innerGap) (by omega) (by omega) hratio'
      have hmh := one_le_toI32_max (ofI32 (params.area.h - params.innerGap) * clamp params.mFact 0.25 0.75)
      have hmh' := toI32_max (ofI32 (params.area.h - params.innerGap) * clamp params.mFact 0.25 0.75)
      generalize toI32 (F32.max (ofI32 (params.area.h - params.innerGap) * clamp params.mFact 0.25 0.75) 1.0) =
        mh at hmh hmh'
      have hmasterRow := @pushFactorRow_contained _ _ params.area.x params.area.y params.area.w mh params.innerGap
        (hborder.take _) hmasters hw' (by omega) (by omega)
      rw [max_eq_left (show 1 ≤ params.area.h - mh - params.innerGap by omega)]
      exact hmasterRow.append (pushDeckPreviews_contained (hborder.drop _) hw hw' (by omega) (by omega))
        (within_top hh (by omega)) (within_bottom (by omega) hgap)
    · rename_i hlandscape
      obtain ⟨hmore, hmasters⟩ := hcolumns (by omega) hlandscape
      by_cases hstack : HasStack params clients
      · rw [if_pos hstack]
        have hmore := hmore hstack
        obtain ⟨hmw, hmw'⟩ := toI32_mul_ratio (n := params.area.w - params.innerGap) (by omega) (by omega) hratio
        generalize toI32 (ofI32 (params.area.w - params.innerGap) * params.mFact) = mw at hmw hmw'
        have hmasterColumn := @pushFactorColumn_contained _ _ params.area.x params.area.y mw params.area.h params.innerGap
          (hborder.take _) hmasters hh' hmw (by omega)
        exact hmasterColumn.append (pushDeckPreviews_contained (hborder.drop _) (by omega) (by omega) hh hh')
          (within_left hw (by omega)) (within_right hmw hgap)
      · rw [if_neg hstack, drop_of_not_hasStack (by omega) hstack]
        have hmasterColumn := @pushFactorColumn_contained _ _ params.area.x params.area.y params.area.w params.area.h
          params.innerGap (hborder.take params.nMaster) hmasters hh' (by omega) hw'
        exact hmasterColumn.append (Contained.nil params.area) (within_left hw (Int.le_refl _)) (Rect.Within.refl _)

theorem calculateDeck_crushed (h : DeckCrushed params clients) :
    ¬Contained clients params.area (calculateDeck params clients) := by
  obtain ⟨hstack, hportrait, hcrushed⟩ := h
  intro hcontained
  have hne : clients.drop params.nMaster ≠ [] := by
    rw [Ne, drop_eq_nil_iff]
    exact Nat.not_le.2 hstack.1
  obtain ⟨c, rest, hdrop⟩ := exists_cons_of_ne_nil hne
  have hwithin := hcontained.within
  have hmh := one_le_toI32_max (ofI32 (params.area.h - params.innerGap) * clamp params.mFact 0.25 0.75)
  unfold calculateDeck at hwithin
  dsimp only at hwithin
  rw [if_neg (by have := hstack.2; omega), if_pos ⟨hstack, hportrait⟩, hdrop] at hwithin
  generalize toI32 (F32.max (ofI32 (params.area.h - params.innerGap) * clamp params.mFact 0.25 0.75) 1.0) =
    mh at hmh hwithin
  unfold pushDeckPreviews at hwithin
  rw [mapIdx_cons] at hwithin
  obtain ⟨-, -, -, hbottom⟩ := hwithin _ (mem_append_right _ mem_cons_self)
  unfold clientRect at hbottom
  dsimp only at hbottom
  rw [Nat.zero_min, Nat.cast_zero, Int.zero_mul] at hbottom
  omega

/-! ## Fibonacci -/

/-- Where the fibonacci layout splits, there is more than the gap to split, and the masters have a pixel each. -/
structure FibonacciFits (params : LayoutParams) (clients : List (LayoutClient K)) : Prop where
  masters : ((clients.take params.nMaster).length : Int) ≤ params.area.h
  split : HasStack params clients → params.innerGap < params.area.w

/-- The side the next split halves is too short for the gap and a pixel to each side of it. -/
def NoRoom (gap : Int) (stackIdx : Nat) (s : Rect) : Prop := (if stackIdx % 2 = 0 then s.h else s.w) < I32.saturatingAdd gap 2

instance (gap : Int) (stackIdx : Nat) (s : Rect) : Decidable (NoRoom gap stackIdx s) :=
  inferInstanceAs (Decidable (_ < _))

section Steps

variable {gap : Int} {stackIdx : Nat} {stopped : Bool} {s : Rect} {c : LayoutClient K} {rest : List (LayoutClient K)}

theorem fibonacciStack_keep (h : (stopped || decide (NoRoom gap stackIdx s) || rest.isEmpty) = true) :
    fibonacciStack gap stackIdx stopped s (c :: rest) = { key := c.key, rect := clientRect s.x s.y s.w s.h c.borderW } ::
      fibonacciStack gap (stackIdx + 1) (stopped || decide (NoRoom gap stackIdx s)) s rest := by
  rw [fibonacciStack]
  exact if_pos h

theorem fibonacciStack_rows (h : ¬(stopped || decide (NoRoom gap stackIdx s) || rest.isEmpty) = true)
    (heven : stackIdx % 2 = 0) :
    fibonacciStack gap stackIdx stopped s (c :: rest) =
      { key := c.key, rect := clientRect s.x s.y s.w ((s.h - gap) / 2) c.borderW } ::
        fibonacciStack gap (stackIdx + 1) (stopped || decide (NoRoom gap stackIdx s))
          ⟨s.x, s.y + ((s.h - gap) / 2 + gap), s.w, s.h - ((s.h - gap) / 2 + gap)⟩ rest := by
  rw [fibonacciStack]
  exact (if_neg h).trans (if_pos heven)

theorem fibonacciStack_columns (h : ¬(stopped || decide (NoRoom gap stackIdx s) || rest.isEmpty) = true)
    (hodd : ¬stackIdx % 2 = 0) :
    fibonacciStack gap stackIdx stopped s (c :: rest) =
      { key := c.key, rect := clientRect s.x s.y ((s.w - gap) / 2) s.h c.borderW } ::
        fibonacciStack gap (stackIdx + 1) (stopped || decide (NoRoom gap stackIdx s))
          ⟨s.x + ((s.w - gap) / 2 + gap), s.y, s.w - ((s.w - gap) / 2 + gap), s.h⟩ rest := by
  rw [fibonacciStack]
  exact (if_neg h).trans (if_neg hodd)

end Steps

/-- The stack's results over a region: those handed out by a split lie apart from one another and from what remains,
all later ones are what remains, and splitting goes on while there is room and more than one client. -/
structure Spiral (gap : Int) (stackIdx : Nat) (s : Rect) (split rest : List (LayoutResult K)) (remaining : Rect) : Prop where
  within : ∀ r ∈ split, r.rect.Within s
  positive : ∀ r ∈ split, r.rect.Positive
  apart : split.Pairwise fun a b => a.rect.Apart b.rect
  region : remaining.Within s ∧ remaining.Positive
  beside : ∀ r ∈ split, r.rect.Apart remaining
  later : ∀ r ∈ rest, r.rect = remaining
  stopped : 1 < rest.length → NoRoom gap (stackIdx + split.length) remaining

theorem fibonacciStack_keys (gap : Int) : ∀ (clients : List (LayoutClient K)) (stackIdx : Nat) (stopped : Bool) (s : Rect),
    (fibonacciStack gap stackIdx stopped s clients).map LayoutResult.key = clients.map LayoutClient.key
  | [], _, _, _ => rfl
  | c :: rest, stackIdx, stopped, s => by
    by_cases h : (stopped || decide (NoRoom gap stackIdx s) || rest.isEmpty) = true
    · rw [fibonacciStack_keep h, map_cons, map_cons, fibonacciStack_keys gap rest]
    · by_cases heven : stackIdx % 2 = 0
      · rw [fibonacciStack_rows h heven, map_cons, map_cons, fibonacciStack_keys gap rest]
      · rw [fibonacciStack_columns h heven, map_cons, map_cons, fibonacciStack_keys gap rest]

theorem clientRect_region {s : Rect} (hpos : s.Positive) (hw : s.w ≤ I32.max) (hh : s.h ≤ I32.max) :
    clientRect s.x s.y s.w s.h 0 = s := by
  obtain ⟨hw', hh'⟩ := hpos
  rw [clientRect_borderless hw hh (by omega) (by omega), max_eq_left hw', max_eq_left hh']

theorem fibonacciStack_stopped (gap : Int) {s : Rect} (hpos : s.Positive) (hw : s.w ≤ I32.max) (hh : s.h ≤ I32.max) :
    ∀ (clients : List (LayoutClient K)) (stackIdx : Nat), Borderless clients →
      ∀ r ∈ fibonacciStack gap stackIdx true s clients, r.rect = s
  | [], _, _, _, hr => absurd hr not_mem_nil
  | c :: rest, stackIdx, hborder, r, hr => by
    rw [fibonacciStack_keep rfl, hborder c mem_cons_self, clientRect_region hpos hw hh] at hr
    rcases mem_cons.1 hr with rfl | hr
    · rfl
    · exact fibonacciStack_stopped gap hpos hw hh rest _ (fun c hc => hborder c (mem_cons_of_mem _ hc)) r hr

theorem Spiral.cons {gap : Int} {stackIdx : Nat} {s s' remaining : Rect} {r : LayoutResult K}
    {split rest : List (LayoutResult K)} (h : Spiral gap (stackIdx + 1) s' split rest remaining) (hwithin : r.rect.Within s)
    (hpos : r.rect.Positive) (happart : r.rect.Apart s') (hleft : s'.Within s) :
    Spiral gap stackIdx s (r :: split) rest remaining := by
  obtain ⟨hin, hpositive, hpairs, ⟨hregion, hregion'⟩, hbeside, hrest, hstopped⟩ := h
  refine ⟨?_, ?_, ?_, ⟨hregion.trans hleft, hregion'⟩, ?_, hrest, ?_⟩
  · rintro q (_ | ⟨_, hq⟩)
    · exact hwithin
    · exact (hin q hq).trans hleft
  · rintro q (_ | ⟨_, hq⟩)
    · exact hpos
    · exact hpositive q hq
  · exact pairwise_cons.2 ⟨fun q hq => happart.within (Rect.Within.refl _) (hin q hq), hpairs⟩
  · rintro q (_ | ⟨_, hq⟩)
    · exact happart.within (Rect.Within.refl _) hregion
    · exact hbeside q hq
  · intro hlong
    have hroom := hstopped hlong
    rwa [length_cons, ← Nat.add_assoc, Nat.add_right_comm]

theorem half_split {extent gap : Int} (h : gap + 2 ≤ extent) :
    1 ≤ (extent - gap) / 2 ∧ (extent - gap) / 2 + gap + 1 ≤ extent := by
  omega

/-- The invariant of the loop: the region that is left is positive, and what is handed out lies beside it. -/
theorem fibonacciStack_spiral {gap : Int} (hgap : 0 ≤ gap) (hmax : gap + 2 ≤ I32.max) :
    ∀ (clients : List (LayoutClient K)) (stackIdx : Nat) (s : Rect), Borderless clients → s.Positive → s.w ≤ I32.max →
      s.h ≤ I32.max → ∃ split rest remaining, fibonacciStack gap stackIdx false s clients = split ++ rest ∧
        (clients ≠ [] → rest ≠ []) ∧ Spiral gap stackIdx s split rest remaining
  | [], _, s, _, hpos, _, _ =>
    ⟨[], [], s, rfl, fun h => absurd rfl h, nofun, nofun, List.Pairwise.nil, ⟨Rect.Within.refl s, hpos⟩, nofun, nofun,
      fun h => absurd h (Nat.not_lt_zero 1)⟩
  | c :: rest, stackIdx, s, hborder, hpos, hw, hh => by
    have hzero := hborder c mem_cons_self
    have hborder' : Borderless rest := fun d hd => hborder d (mem_cons_of_mem _ hd)
    have hroom : I32.saturatingAdd gap 2 = gap + 2 := I32.clamp_eq (by unfold I32.min; omega) hmax
    by_cases hkeep : (false || decide (NoRoom gap stackIdx s) || rest.isEmpty) = true
    · rw [fibonacciStack_keep hkeep, hzero, clientRect_region hpos hw hh]
      refine ⟨[], _, s, (nil_append _).symm, fun _ => cons_ne_nil _ _, nofun, nofun, List.Pairwise.nil,
        ⟨Rect.Within.refl s, hpos⟩, nofun, ?_, ?_⟩
      · rintro r (_ | ⟨_, hr⟩)
        · rfl
        · by_cases hnoRoom : NoRoom gap stackIdx s
          · rw [decide_eq_true hnoRoom] at hr
            exact fibonacciStack_stopped gap hpos hw hh rest _ hborder' r hr
          · rw [decide_eq_false hnoRoom] at hkeep
            rw [isEmpty_iff.1 hkeep] at hr
            exact absurd hr not_mem_nil
      · intro hlong
        by_contra hnoRoom
        rw [length_nil, Nat.add_zero] at hnoRoom
        rw [decide_eq_false hnoRoom] at hkeep hlong
        rw [isEmpty_iff.1 hkeep] at hlong
        exact absurd hlong (Nat.lt_irrefl 1)
    · have hsplit : ¬NoRoom gap stackIdx s := fun h => hkeep (by rw [decide_eq_true h]; rfl)
      have hrest : rest ≠ [] := fun h => hkeep (by rw [h]; exact Bool.or_true _)
      obtain ⟨hw', hh'⟩ := hpos
      have hfalse : (false || decide (NoRoom gap stackIdx s)) = false := by rw [decide_eq_false hsplit]; rfl
      by_cases heven : stackIdx % 2 = 0
      · rw [fibonacciStack_rows hkeep heven, hzero, hfalse]
        unfold NoRoom at hsplit
        rw [if_pos heven, hroom] at hsplit
        obtain ⟨hhalf, hleft⟩ := half_split (show gap + 2 ≤ s.h by omega)
        generalize (s.h - gap) / 2 = half at hhalf hleft
        obtain ⟨split, later, remaining, happend, hne, hspiral⟩ := fibonacciStack_spiral hgap hmax rest (stackIdx + 1)
          ⟨s.x, s.y + (half + gap), s.w, s.h - (half + gap)⟩ hborder' ⟨hw', by dsimp only; omega⟩ hw (by dsimp only; omega)
        rw [happend, clientRect_borderless hw (by omega) (by omega) (by omega), max_eq_left hw', max_eq_left hhalf]
        exact ⟨_ :: split, later, remaining, rfl, fun _ => hne hrest, hspiral.cons
          ⟨Int.le_refl _, Int.le_refl _, Int.le_refl _, by dsimp only; omega⟩ ⟨hw', hhalf⟩
          (.inr (.inr (.inl (by dsimp only; omega))))
          ⟨Int.le_refl _, by dsimp only; omega, Int.le_refl _, by dsimp only; omega⟩⟩
      · rw [fibonacciStack_columns hkeep heven, hzero, hfalse]
        unfold NoRoom at hsplit
        rw [if_neg heven, hroom] at hsplit
        obtain ⟨hhalf, hleft⟩ := half_split (show gap + 2 ≤ s.w by omega)
        generalize (s.w - gap) / 2 = half at hhalf hleft
        obtain ⟨split, later, remaining, happend, hne, hspiral⟩ := fibonacciStack_spiral hgap hmax rest (stackIdx + 1)
          ⟨s.x + (half + gap), s.y, s.w - (half + gap), s.h⟩ hborder' ⟨by dsimp only; omega, hh'⟩ (by dsimp only; omega) hh
        rw [happend, clientRect_borderless (by omega) hh (by omega) (by omega), max_eq_left hh', max_eq_left hhalf]
        exact ⟨_ :: split, later, remaining, rfl, fun _ => hne hrest, hspiral.cons
          ⟨Int.le_refl _, Int.le_refl _, by dsimp only; omega, Int.le_refl _⟩ ⟨hhalf, hh'⟩ (.inl (by dsimp only; omega))
          ⟨by dsimp only; omega, Int.le_refl _, by dsimp only; omega, Int.le_refl _⟩⟩

theorem Spiral.contained {gap : Int} {stackIdx : Nat} {s remaining : Rect} {split rest : List (LayoutResult K)}
    (h : Spiral gap stackIdx s split rest remaining) : ∀ r ∈ split ++ rest, r.rect.Within s ∧ r.rect.Positive := by
  intro r hr
  rcases mem_append.1 hr with hr | hr
  · exact ⟨h.within r hr, h.positive r hr⟩
  · rw [h.later r hr]
    exact h.region

/-- The screen's sides are `i32`. -/
def LayoutParams.InRange (params : LayoutParams) : Prop := params.screenArea.w ≤ I32.max ∧ params.screenArea.h ≤ I32.max

theorem LayoutParams.InRange.innerGap_le (h : params.InRange) : params.innerGap + 2 ≤ I32.max := by
  obtain ⟨hw, hh⟩ := h
  unfold LayoutParams.innerGap boundedGap
  unfold I32.max at hw hh ⊢
  dsimp only
  have hle := (@I32.clampTo_spec 0 (min (max params.screenArea.w 0) (max params.screenArea.h 0) / 2) (by omega) params.gap).2
  omega

theorem fibonacciRegion_spec (hnan : params.mFact.toModel.isNaN = false) (hfits : FibonacciFits params clients)
    (hstack : params.nMaster < clients.length) :
    (fibonacciRegion params clients.length params.area params.innerGap).Within params.area ∧
      (fibonacciRegion params clients.length params.area params.innerGap).Positive := by
  obtain ⟨⟨hw, hw'⟩, hh, hh'⟩ := params.area_sides
  have hgap := params.innerGap_nonneg
  unfold fibonacciRegion
  dsimp only
  rw [if_pos hstack]
  split
  · rename_i hpos
    obtain ⟨m, e, hratio⟩ := isRatio_clamp_wide hnan
    have hmore := hfits.split ⟨hstack, hpos⟩
    obtain ⟨hmw, hmw'⟩ := toI32_mul_ratio (n := params.area.w - params.innerGap) (by omega) (by omega) hratio
    exact ⟨within_right hmw hgap, by dsimp only; omega, hh⟩
  · exact ⟨Rect.Within.refl _, hw, hh⟩

theorem calculateFibonacci_masters
    (hnan : params.mFact.toModel.isNaN = false) (hborder : Borderless clients) (hfits : FibonacciFits params clients) :
    Contained (clients.take params.nMaster) params.area (pushFactorColumn (clients.take params.nMaster) params.area.x params.area.y
      (if params.nMaster < clients.length then
        toI32 (ofI32 (params.area.w - params.innerGap) * clamp params.mFact 0.05 0.95) else params.area.w)
      params.area.h params.innerGap) := by
  obtain ⟨⟨hw, hw'⟩, hh, hh'⟩ := params.area_sides
  have hgap := params.innerGap_nonneg
  rcases Nat.eq_zero_or_pos params.nMaster with hzero | hpos
  · rw [hzero]
    exact Contained.nil _
  · have hcolumn : ∀ mw, 0 ≤ mw → mw ≤ params.area.w → Contained (clients.take params.nMaster) params.area
        (pushFactorColumn (clients.take params.nMaster) params.area.x params.area.y mw params.area.h params.innerGap) := by
      intro mw hmw hmw'
      obtain ⟨hkeys, hwithin, hpositive⟩ := @pushFactorColumn_contained _ _ params.area.x params.area.y mw params.area.h
        params.innerGap (hborder.take _) hfits.masters hh' hmw (by omega)
      exact ⟨hkeys, fun r hr => (hwithin r hr).trans (within_left hw hmw'), hpositive⟩
    split
    · rename_i hstack
      obtain ⟨m, e, hratio⟩ := isRatio_clamp_wide hnan
      have hmore := hfits.split ⟨hstack, hpos⟩
      obtain ⟨hmw, hmw'⟩ := toI32_mul_ratio (n := params.area.w - params.innerGap) (by omega) (by omega) hratio
      exact hcolumn _ hmw (by omega)
    · exact hcolumn _ (by omega) (Int.le_refl _)

/-- The fibonacci layout: everything inside, and after the masters a spiral over the stack's region. -/
structure FibonacciShape (params : LayoutParams) (clients : List (LayoutClient K)) (results : List (LayoutResult K)) : Prop where
  contained : Contained clients params.area results
  spiral : params.nMaster < clients.length → ∃ split rest remaining, results.drop params.nMaster = split ++ rest ∧ rest ≠ [] ∧
    Spiral params.innerGap 0 (fibonacciRegion params clients.length params.area params.innerGap) split rest remaining

theorem calculateFibonacci_shape (hrange : params.InRange)
    (hnan : params.mFact.toModel.isNaN = false) (hborder : Borderless clients) (hfits : FibonacciFits params clients) :
    FibonacciShape params clients (calculateFibonacci params clients) := by
  obtain ⟨⟨hw, hw'⟩, hh, hh'⟩ := params.area_sides
  have hmasters := calculateFibonacci_masters hnan hborder hfits
  unfold calculateFibonacci
  dsimp only
  generalize pushFactorColumn (clients.take params.nMaster) params.area.x params.area.y _ params.area.h params.innerGap = masters
    at hmasters ⊢
  by_cases hstack : params.nMaster < clients.length
  · obtain ⟨hregion, hpos⟩ := fibonacciRegion_spec hnan hfits hstack
    have hlength : masters.length = params.nMaster := by
      have hkeys := congrArg length hmasters.keys
      rw [length_map, length_map, length_take] at hkeys
      omega
    have hne : clients.drop params.nMaster ≠ [] := by
      rw [Ne, drop_eq_nil_iff]
      omega
    generalize hs : fibonacciRegion params clients.length params.area params.innerGap = s at hregion hpos ⊢
    have hsides : s.w ≤ I32.max ∧ s.h ≤ I32.max := by
      obtain ⟨hl, ht, hr, hb⟩ := hregion
      omega
    obtain ⟨split, rest, remaining, happend, hrest, hspiral⟩ := fibonacciStack_spiral params.innerGap_nonneg hrange.innerGap_le
      (clients.drop params.nMaster) 0 s (hborder.drop _) hpos hsides.1 hsides.2
    refine ⟨?_, fun _ => ⟨split, rest, remaining, ?_, hrest hne, hs ▸ hspiral⟩⟩
    · have hstackResults : Contained (clients.drop params.nMaster) s
          (fibonacciStack params.innerGap 0 false s (clients.drop params.nMaster)) := by
        refine ⟨fibonacciStack_keys _ _ _ _ _, ?_, ?_⟩
        · rw [happend]
          exact fun r hr => (hspiral.contained r hr).1
        · rw [happend]
          exact fun r hr => (hspiral.contained r hr).2
      have happended := hmasters.append hstackResults (Rect.Within.refl _) hregion
      rwa [take_append_drop] at happended
    · rw [← hlength, drop_left, hlength, happend]
  · refine ⟨?_, fun h => absurd h hstack⟩
    rw [drop_eq_nil_of_le (by omega), fibonacciStack, append_nil]
    rwa [take_of_length_le (by omega)] at hmasters

/-! ## The three layouts -/

/-- Tile, deck and fibonacci keep every client inside. -/
structure StaysInside (params : LayoutParams) (clients : List (LayoutClient K)) : Prop where
  tile : TileFits params clients → Contained clients params.area (calculateTile params clients)
  deck : DeckFits params clients → Contained clients params.area (calculateDeck params clients)
  fibonacci : FibonacciFits params clients → FibonacciShape params clients (calculateFibonacci params clients)

/-- The layouts keep inside but for a crushed deck, whose previews lie below the area. -/
theorem staysInside_iff (params : LayoutParams) (clients : List (LayoutClient K)) (hrange : params.InRange)
    (hlow : 0.05 ≤ params.mFact) (hhigh : params.mFact ≤ 0.95) (hborder : Borderless clients) :
    StaysInside params clients ↔ ¬(DeckFits params clients ∧ DeckCrushed params clients) := by
  have hnan := F32.not_nan_of_le hlow
  obtain ⟨m, e, hratio⟩ := F32.isRatio_of_le hlow hhigh
  constructor
  · rintro ⟨-, hdeck, -⟩ ⟨hfits, hcrushed⟩
    exact calculateDeck_crushed hcrushed (hdeck hfits)
  · intro hcrushed
    exact ⟨fun hfits => calculateTile_contained hnan hborder hfits,
      fun hfits => calculateDeck_contained hratio hnan hborder hfits fun h => hcrushed ⟨hfits, h⟩,
      fun hfits => calculateFibonacci_shape hrange hnan hborder hfits⟩

/-- A screen of three by four with a gap of one: an area of one by two. -/
def Sample.tallParams : LayoutParams := ⟨⟨0, 0, 3, 4⟩, 1, 0.5, 1⟩

def Sample.pair : List (LayoutClient Nat) := [⟨0, 1.0, 0⟩, ⟨1, 1.0, 0⟩]

/-- The preview lies in the row below the area's two. -/
theorem deck_preview_below :
    (0.05 ≤ Sample.tallParams.mFact ∧ Sample.tallParams.mFact ≤ 0.95 ∧ Borderless Sample.pair) ∧
      Sample.tallParams.area = ⟨1, 1, 1, 2⟩ ∧
      (calculateDeck Sample.tallParams Sample.pair).map LayoutResult.rect = [⟨1, 1, 1, 1⟩, ⟨1, 3, 1, 1⟩] ∧
      ¬StaysInside Sample.tallParams Sample.pair := by
  refine ⟨⟨by decide +kernel, by decide +kernel, by decide⟩, by decide +kernel, by decide +kernel, fun h => ?_⟩
  have hfits : DeckFits Sample.tallParams Sample.pair :=
    ⟨fun _ _ => by decide +kernel, fun _ h => absurd (by decide +kernel) h⟩
  have hwithin := (h.deck hfits).within ⟨1, ⟨1, 3, 1, 1⟩⟩ (by decide +kernel)
  exact absurd hwithin.bottom (by decide +kernel)

def Sample.wideParams : LayoutParams := ⟨⟨0, 0, 30, 20⟩, 1, 0.5, 2⟩

def Sample.four : List (LayoutClient Nat) := (List.range 4).map fun i => ⟨i, 1.0, 0⟩

theorem staysInside_iff_four :
    (calculateFibonacci Sample.wideParams Sample.four).map LayoutResult.rect =
        [⟨2, 2, 12, 16⟩, ⟨16, 2, 12, 7⟩, ⟨16, 11, 5, 7⟩, ⟨23, 11, 5, 7⟩] ∧
      (StaysInside Sample.wideParams Sample.four ↔ ¬(DeckFits Sample.wideParams Sample.four ∧ DeckCrushed Sample.wideParams Sample.four)) :=
  ⟨by decide +kernel, staysInside_iff Sample.wideParams Sample.four ⟨by decide, by decide⟩ (by decide +kernel) (by decide +kernel)
    (by decide)⟩

end Jwm.Layout
