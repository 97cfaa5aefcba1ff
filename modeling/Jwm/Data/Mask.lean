/-
Sets of small numbers as 32-bit masks: single bits, the lowest member, the mask of the first `n`
numbers.
-/
import Mathlib.Algebra.Ring.Nat
import Mathlib.Data.List.Basic

namespace Jwm

open BitVec

/-- `u32::trailing_zeros`. -/
def trailingZeros (x : BitVec 32) : Nat := ((List.range 32).find? (x.getLsbD ·)).getD 32

/-- `1u32.checked_shl(n).unwrap_or(0)`. -/
def checkedBit (n : Nat) : BitVec 32 := if n < 32 then 1#32 <<< n else 0

/-- The mask of the numbers below `n`, for `n ≤ 31`. -/
def lowMask (n : Nat) : BitVec 32 := 1#32 <<< n - 1#32

/-- Every member of the mask is below `n`. -/
def Below (x : BitVec 32) (n : Nat) : Prop := x &&& lowMask n = x

instance (x : BitVec 32) (n : Nat) : Decidable (Below x n) := inferInstanceAs (Decidable (_ = _))

/-! ## Members -/

variable {x : BitVec 32}

theorem exists_bit (h : x ≠ 0) : ∃ i, i < 32 ∧ x.getLsbD i = true := by
  by_contra hn
  push Not at hn
  refine h (eq_of_getLsbD_eq fun i hi => ?_)
  rw [Bool.eq_false_iff.2 (hn i hi)]
  simp

theorem ne_zero_of_bit {i : Nat} (h : x.getLsbD i = true) : x ≠ 0 := by
  rintro rfl
  simp at h

theorem getLsbD_trailingZeros (h : x ≠ 0) : x.getLsbD (trailingZeros x) = true := by
  obtain ⟨i, hi, hb⟩ := exists_bit h
  unfold trailingZeros
  cases hf : (List.range 32).find? (x.getLsbD ·) with
  | none =>
    rw [List.find?_eq_none] at hf
    exact absurd hb (hf i (List.mem_range.2 hi))
  | some j => exact List.find?_some hf

theorem and_bit_ne_zero {i : Nat} : x &&& 1#32 <<< i ≠ 0 ↔ x.getLsbD i = true := by
  rw [← twoPow_eq, and_twoPow]
  constructor
  · intro h
    by_contra hb
    exact h (if_neg hb)
  · intro h
    rw [if_pos h]
    have hbit : (BitVec.twoPow 32 i).getLsbD i = true := by
      rw [getLsbD_twoPow]
      simpa using lt_of_getLsbD h
    exact ne_zero_of_bit hbit

theorem and_checkedBit_ne_zero {i : Nat} : x &&& checkedBit i ≠ 0 ↔ x.getLsbD i = true := by
  unfold checkedBit
  split
  · exact and_bit_ne_zero
  · rename_i hi
    rw [getLsbD_of_ge x i (Nat.not_lt.1 hi)]
    simp

/-! ## The first numbers -/

theorem lowMask_eq : ∀ n, n < 32 → lowMask n = BitVec.ofNat 32 (2 ^ n - 1) := by decide

variable {n : Nat}

theorem getLsbD_lowMask (h : n < 32) (i : Nat) : (lowMask n).getLsbD i = decide (i < n) := by
  rw [lowMask_eq n h, getLsbD_ofNat, Nat.testBit_two_pow_sub_one]
  by_cases hi : i < n
  · have : i < 32 := by omega
    simp [hi, this]
  · simp [hi]

theorem below_iff (h : n < 32) : Below x n ↔ ∀ i, x.getLsbD i = true → i < n := by
  unfold Below
  rw [eq_of_getLsbD_eq_iff]
  constructor
  · intro hb i hi
    have := hb i (lt_of_getLsbD hi)
    rw [getLsbD_and, getLsbD_lowMask h, hi] at this
    simpa using this
  · intro hb i _
    rw [getLsbD_and, getLsbD_lowMask h]
    cases hi : x.getLsbD i with
    | false => rfl
    | true => simpa using hb i hi

theorem below_and_lowMask (x : BitVec 32) : Below (x &&& lowMask n) n := by
  unfold Below
  rw [BitVec.and_assoc, BitVec.and_self]

theorem Below.xor {y : BitVec 32} (h : n < 32) (hx : Below x n) (hy : Below y n) : Below (x ^^^ y) n := by
  rw [below_iff h] at hx hy ⊢
  intro i hi
  rw [getLsbD_xor] at hi
  cases hxi : x.getLsbD i with
  | true => exact hx i hxi
  | false =>
    rw [hxi, Bool.false_xor] at hi
    exact hy i hi

/-- A mask below `n` that covers the first `n` numbers is the mask of them. -/
theorem and_lowMask_eq_iff (h : n < 32) : x &&& lowMask n = lowMask n ↔ ∀ i, i < n → x.getLsbD i = true := by
  rw [eq_of_getLsbD_eq_iff]
  constructor
  · intro hx i hi
    have := hx i (by omega)
    rw [getLsbD_and, getLsbD_lowMask h] at this
    simpa [hi] using this
  · intro hx i _
    rw [getLsbD_and, getLsbD_lowMask h]
    by_cases hi : i < n
    · rw [hx i hi, Bool.true_and]
    · simp [hi]

theorem below_ne_allOnes (h : n < 32) (hx : Below x n) : x ≠ BitVec.allOnes 32 := by
  rintro rfl
  have := (below_iff h).1 hx 31 (by decide)
  omega

end Jwm
