/-
What size hints make of an offered size (`jwm/geometry.rs`), side by side: the increment is aligned towards the base, then
the minimum and the maximum are applied. A second application can differ from the first, but never a third from the second.
-/
import Jwm.Core.Constraints

namespace Jwm

/-! ## Sides -/

/-- One side after the aspect correction: the increment, the minimum, the maximum. -/
def constrainSide (size base increment minSide maxSide : Int) : Int :=
  let side := max (incrementAlignedDimension size base increment) (clampDimension minSide)
  if maxSide > 0 then min side (clampDimension maxSide) else side

/-- `calculate_constrained_size` with any correction of the aspect. -/
def constrainedSizeBy (correct : Int → Int → SizeHints → Int × Int) (w h : Int) (hints : SizeHints) : Int × Int :=
  let size := correct w h hints
  (constrainSide size.1 hints.baseW hints.incW hints.minW hints.maxW, constrainSide size.2 hints.baseH hints.incH hints.minH hints.maxH)

theorem calculateConstrainedSize_by : calculateConstrainedSize = constrainedSizeBy applyAspectRatioConstraints := rfl

section

variable {size base increment minSide maxSide : Int}

theorem clampDimension_bounds (value : Int) : 1 ≤ clampDimension value ∧ clampDimension value ≤ 65535 := by
  unfold clampDimension minConstrainedDimension maxConstrainedDimension
  omega

theorem emod_le_self {n : Int} (hn : 0 ≤ n) (hinc : 0 < increment) : n % increment ≤ n := by
  have hsteps : 0 ≤ increment * (n / increment) := Int.mul_nonneg hinc.le (Int.ediv_nonneg hn hinc.le)
  have := Int.mul_ediv_add_emod n increment
  omega

theorem alignedOffset_above (hinc : 0 < increment) (h : base ≤ size) :
    alignedOffset (size - base) increment + base = size - (size - base) % increment := by
  unfold alignedOffset
  rw [if_pos hinc, Int.tdiv_eq_ediv_of_nonneg (Int.sub_nonneg_of_le h)]
  have := Int.mul_ediv_add_emod (size - base) increment
  rw [Int.mul_comm] at this
  omega

theorem alignedOffset_below (hinc : 0 < increment) (h : size ≤ base) :
    alignedOffset (size - base) increment + base = size + (base - size) % increment := by
  unfold alignedOffset
  rw [if_pos hinc, show size - base = -(base - size) by omega, Int.neg_tdiv, Int.tdiv_eq_ediv_of_nonneg (Int.sub_nonneg_of_le h),
    Int.neg_mul]
  have := Int.mul_ediv_add_emod (base - size) increment
  rw [Int.mul_comm] at this
  omega

theorem alignedOffset_unset (hinc : increment ≤ 0) : alignedOffset (size - base) increment + base = size := by
  unfold alignedOffset
  rw [if_neg (by omega)]
  omega

theorem constrainSide_bounds : 1 ≤ constrainSide size base increment minSide maxSide ∧
    constrainSide size base increment minSide maxSide ≤ 65535 := by
  have ha := clampDimension_bounds (alignedOffset (size - base) increment + base)
  have hmin := clampDimension_bounds minSide
  have hmax := clampDimension_bounds maxSide
  unfold constrainSide incrementAlignedDimension
  dsimp only
  split <;> omega

end

/-! ## The ceiling -/

/-- The side is shorter than the base, and the next step towards the base is longer than what was offered and than the minimum;
no maximum takes it back. -/
def Overgrows (offered size base increment minSide maxSide : Int) : Prop :=
  let ceiling := max offered (clampDimension minSide)
  0 < increment ∧ size < base ∧ ceiling < size + (base - size) % increment ∧ ceiling < maxConstrainedDimension ∧
    (0 < maxSide → ceiling < clampDimension maxSide)

instance (offered size base increment minSide maxSide : Int) :
    Decidable (Overgrows offered size base increment minSide maxSide) := by
  unfold Overgrows
  infer_instance

theorem constrainSide_le_iff {offered size : Int} (hoffered : 1 ≤ offered) (h : size ≤ offered)
    (base increment minSide maxSide : Int) :
    constrainSide size base increment minSide maxSide ≤ max offered (clampDimension minSide) ↔
      ¬ Overgrows offered size base increment minSide maxSide := by
  unfold Overgrows constrainSide incrementAlignedDimension
  have hmin := clampDimension_bounds minSide
  have hmax := clampDimension_bounds maxSide
  generalize clampDimension minSide = low at hmin ⊢
  generalize clampDimension maxSide = high at hmax ⊢
  unfold clampDimension minConstrainedDimension maxConstrainedDimension
  rcases Int.lt_or_le 0 increment with hinc | hinc
  · rcases Int.lt_or_le size base with hbase | hbase
    · rw [alignedOffset_below hinc hbase.le]
      dsimp only
      split <;> omega
    · have hmod := Int.emod_nonneg (size - base) hinc.ne'
      rw [alignedOffset_above hinc hbase]
      dsimp only
      split <;> omega
  · rw [alignedOffset_unset hinc]
    dsimp only
    split <;> omega

/-- What fits in an `i64`. -/
def I64.Holds (n : Int) : Prop := -2 ^ 63 ≤ n ∧ n < 2 ^ 63

/-- What fits in an `i32`. -/
def I32.Holds (n : Int) : Prop := I32.min ≤ n ∧ n ≤ I32.max

/-- Every value on the way of `increment_aligned_dimension` is one of an `i64`. -/
structure Wide (size base increment : Int) : Prop where
  offset : I64.Holds (size - base)
  steps : I64.Holds ((size - base).tdiv increment)
  aligned : I64.Holds (alignedOffset (size - base) increment)
  side : I64.Holds (alignedOffset (size - base) increment + base)

theorem wide_of_words {size base increment : Int} (hsize : I32.Holds size) (hbase : I32.Holds base) : Wide size base increment := by
  unfold I32.Holds I32.min I32.max at hsize hbase
  have hsteps : ((size - base).tdiv increment).natAbs ≤ (size - base).natAbs := by
    rw [Int.natAbs_tdiv]
    exact Nat.div_le_self _ _
  have haligned : I64.Holds (alignedOffset (size - base) increment) ∧ I64.Holds (alignedOffset (size - base) increment + base) := by
    unfold I64.Holds
    rcases Int.lt_or_le 0 increment with hinc | hinc
    · rcases Int.lt_or_le size base with h | h
      · have := alignedOffset_below hinc h.le
        have := Int.emod_nonneg (base - size) hinc.ne'
        have := emod_le_self (show 0 ≤ base - size by omega) hinc
        omega
      · have := alignedOffset_above hinc h
        have := Int.emod_nonneg (size - base) hinc.ne'
        have := emod_le_self (show 0 ≤ size - base by omega) hinc
        omega
    · have := @alignedOffset_unset size base increment hinc
      omega
  refine ⟨?_, ?_, haligned.1, haligned.2⟩
  · unfold I64.Holds
    omega
  · unfold I64.Holds
    omega

/-- The sides can be configured, reached without overflow, and no longer than was offered or than the client's own minimum.
-/
structure WithinBox (w h : Int) (hints : SizeHints) (corrected size : Int × Int) : Prop where
  wide : Wide corrected.1 hints.baseW hints.incW ∧ Wide corrected.2 hints.baseH hints.incH
  width : 1 ≤ size.1 ∧ size.1 ≤ maxConstrainedDimension
  height : 1 ≤ size.2 ∧ size.2 ≤ maxConstrainedDimension
  width_le : size.1 ≤ max w (clampDimension hints.minW)
  height_le : size.2 ≤ max h (clampDimension hints.minH)

/-- The offered box is a ceiling unless the alignment lengthens a side that is shorter than its base past it. That the sides can be
configured and that no step overflows holds always. -/
theorem constrained_size_within_box_iff (correct : Int → Int → SizeHints → Int × Int) {w h : Int} {hints : SizeHints} (hw : 1 ≤ w)
    (hh : 1 ≤ h) (hcorrect : (correct w h hints).1 ≤ w ∧ (correct w h hints).2 ≤ h)
    (hside : I32.Holds (correct w h hints).1 ∧ I32.Holds (correct w h hints).2)
    (hbase : I32.Holds hints.baseW ∧ I32.Holds hints.baseH) :
    let corrected := correct w h hints
    let size := constrainedSizeBy correct w h hints
    (WithinBox w h hints corrected size ↔
      ¬ Overgrows w corrected.1 hints.baseW hints.incW hints.minW hints.maxW ∧
        ¬ Overgrows h corrected.2 hints.baseH hints.incH hints.minH hints.maxH) ∧
    (Wide corrected.1 hints.baseW hints.incW ∧ Wide corrected.2 hints.baseH hints.incH) ∧
    (1 ≤ size.1 ∧ size.1 ≤ maxConstrainedDimension) ∧ 1 ≤ size.2 ∧ size.2 ≤ maxConstrainedDimension := by
  intro corrected size
  have hwidth := constrainSide_le_iff hw hcorrect.1 hints.baseW hints.incW hints.minW hints.maxW
  have hheight := constrainSide_le_iff hh hcorrect.2 hints.baseH hints.incH hints.minH hints.maxH
  have hwide : Wide corrected.1 hints.baseW hints.incW ∧ Wide corrected.2 hints.baseH hints.incH :=
    ⟨wide_of_words hside.1 hbase.1, wide_of_words hside.2 hbase.2⟩
  refine ⟨⟨fun h => ?_, fun ⟨hw', hh'⟩ => ?_⟩, hwide, constrainSide_bounds, constrainSide_bounds⟩
  · exact ⟨hwidth.1 h.width_le, hheight.1 h.height_le⟩
  · exact ⟨hwide, constrainSide_bounds, constrainSide_bounds, hwidth.2 hw', hheight.2 hh'⟩

theorem constrained_size_within_box_terminal :
    WithinBox 905 1000 { baseW := 4, incW := 10 } (905, 1000) (constrainedSizeBy (fun w h _ => (w, h)) 905 1000 { baseW := 4, incW := 10 }) :=
  (constrained_size_within_box_iff (fun w h _ => (w, h)) (by decide) (by decide) (by decide) (by unfold I32.Holds; decide)
    (by unfold I32.Holds; decide)).1.2 ⟨by decide, by decide⟩

/-- A base of ten turns an offered width of five into six. -/
theorem base_beyond_box_overgrows : calculateConstrainedSize 5 1 { baseW := 10, incW := 4 } = (6, 1) ∧
    ¬ WithinBox 5 1 { baseW := 10, incW := 4 } (5, 1) (6, 1) :=
  ⟨by decide +kernel, fun h => absurd h.width_le (by decide)⟩

/-! ## Applying the hints again -/

/-- A second application leaves the side: it is on a step, or the minimum or an upper bound holds it. -/
def SideSettled (side base increment minSide maxSide : Int) : Prop :=
  increment ≤ 0 ∨ increment ∣ side - base ∨ base < side ∧ side ≤ clampDimension minSide ∨
    side < base ∧ (side = maxConstrainedDimension ∨ 0 < maxSide ∧ side = clampDimension maxSide)

section

variable {size base increment minSide maxSide : Int}

theorem constrainSide_cases (size base increment minSide maxSide : Int) :
    let side := constrainSide size base increment minSide maxSide
    1 ≤ side ∧ side ≤ 65535 ∧ (0 < maxSide → side ≤ clampDimension maxSide) ∧
      (clampDimension minSide ≤ side ∨ 0 < maxSide ∧ side = clampDimension maxSide) := by
  have hbounds := @constrainSide_bounds size base increment minSide maxSide
  refine ⟨hbounds.1, hbounds.2, ?_⟩
  unfold constrainSide
  dsimp only
  split <;> omega

theorem constrainSide_side {side : Int} (hone : 1 ≤ side) (hlast : side ≤ 65535) (hmax : 0 < maxSide → side ≤ clampDimension maxSide)
    (hmin : clampDimension minSide ≤ side ∨ 0 < maxSide ∧ side = clampDimension maxSide) :
    constrainSide side base increment minSide maxSide = side ↔ SideSettled side base increment minSide maxSide := by
  have hlow := clampDimension_bounds minSide
  have hhigh := clampDimension_bounds maxSide
  unfold SideSettled constrainSide incrementAlignedDimension
  generalize clampDimension minSide = low at hmin hlow ⊢
  generalize clampDimension maxSide = high at hmax hmin hhigh ⊢
  unfold clampDimension minConstrainedDimension maxConstrainedDimension
  rcases Int.lt_or_le 0 increment with hinc | hinc
  · rcases Int.lt_or_le side base with h | h
    · rw [alignedOffset_below hinc h.le, show side - base = -(base - side) by omega, Int.dvd_neg, Int.dvd_iff_emod_eq_zero]
      have := Int.emod_nonneg (base - side) hinc.ne'
      generalize (base - side) % increment = left at *
      dsimp only
      split <;> omega
    · rw [alignedOffset_above hinc h, Int.dvd_iff_emod_eq_zero]
      have := Int.emod_nonneg (side - base) hinc.ne'
      generalize hleft : (side - base) % increment = left at *
      have : side = base → left = 0 := by
        rintro rfl
        rw [← hleft, Int.sub_self, Int.zero_emod]
      dsimp only
      split <;> omega
  · rw [alignedOffset_unset hinc]
    dsimp only
    split <;> omega

theorem constrainSide_settles_iff (size base increment minSide maxSide : Int) :
    let side := constrainSide size base increment minSide maxSide
    constrainSide side base increment minSide maxSide = side ↔ SideSettled side base increment minSide maxSide := by
  obtain ⟨hone, hlast, hmax, hmin⟩ := constrainSide_cases size base increment minSide maxSide
  exact constrainSide_side hone hlast hmax hmin

/-- An application to a side that fits the bounds ends on a step, or where a bound holds it. -/
theorem constrainSide_settled {side : Int} (hone : 1 ≤ side) (hlast : side ≤ 65535) (hmax : 0 < maxSide → side ≤ clampDimension maxSide)
    (hmin : clampDimension minSide ≤ side ∨ 0 < maxSide ∧ side = clampDimension maxSide) :
    SideSettled (constrainSide side base increment minSide maxSide) base increment minSide maxSide := by
  have hlow := clampDimension_bounds minSide
  have hhigh := clampDimension_bounds maxSide
  unfold SideSettled constrainSide incrementAlignedDimension
  generalize clampDimension minSide = low at hmin hlow ⊢
  generalize clampDimension maxSide = high at hmax hmin hhigh ⊢
  rcases Int.lt_or_le 0 increment with hinc | hinc
  · -- the side is on the step `aligned`, unless a bound has moved it off
    obtain ⟨aligned, haligned, hstep, hway⟩ : ∃ aligned, alignedOffset (side - base) increment + base = aligned ∧
        increment ∣ aligned - base ∧ (base ≤ aligned ∧ aligned ≤ side ∨ side < base ∧ side ≤ aligned ∧ aligned ≤ base) := by
      refine ⟨_, rfl, ?_, ?_⟩
      · rw [Int.add_sub_cancel, alignedOffset, if_pos hinc]
        exact Int.dvd_mul_left _ _
      · rcases Int.lt_or_le side base with h | h
        · rw [alignedOffset_below hinc h.le]
          have := Int.emod_nonneg (base - side) hinc.ne'
          have := emod_le_self (Int.sub_nonneg_of_le h.le) hinc
          omega
        · rw [alignedOffset_above hinc h]
          have := Int.emod_nonneg (side - base) hinc.ne'
          have := emod_le_self (Int.sub_nonneg_of_le h) hinc
          omega
    rw [haligned]
    unfold clampDimension minConstrainedDimension maxConstrainedDimension
    generalize hnext : (if maxSide > 0 then min (max (max 1 (min 65535 aligned)) low) high
      else max (max 1 (min 65535 aligned)) low) = next
    have hnext : next = aligned ∨ next = base ∨ base < next ∧ next ≤ low ∨
        next < base ∧ (next = 65535 ∨ 0 < maxSide ∧ next = high) := by
      split at hnext <;> omega
    rcases hnext with rfl | rfl | hnext | hnext
    · exact .inr (.inl hstep)
    · exact .inr (.inl (by rw [Int.sub_self]; exact Int.dvd_zero _))
    · exact .inr (.inr (.inl hnext))
    · exact .inr (.inr (.inr hnext))
  · exact .inl hinc

theorem constrainSide_twice (size base increment minSide maxSide : Int) :
    let side := constrainSide (constrainSide size base increment minSide maxSide) base increment minSide maxSide
    constrainSide side base increment minSide maxSide = side := by
  obtain ⟨hone, hlast, hmax, hmin⟩ := constrainSide_cases size base increment minSide maxSide
  exact (constrainSide_settles_iff _ base increment minSide maxSide).2 (constrainSide_settled hone hlast hmax hmin)

theorem one_le_calculateConstrainedSize (w h : Int) (hints : SizeHints) :
    1 ≤ (calculateConstrainedSize w h hints).1 ∧ 1 ≤ (calculateConstrainedSize w h hints).2 := by
  rw [calculateConstrainedSize_by]
  exact ⟨constrainSide_bounds.1, constrainSide_bounds.1⟩

end

end Jwm
