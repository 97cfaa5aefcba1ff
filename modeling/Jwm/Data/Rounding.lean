/-
Quotients rounded to the nearest whole number, and what is left on two sides of something centred.
-/
import Mathlib.Tactic.FieldSimp
import Mathlib.Tactic.Linarith

namespace Jwm

/-- `n / d` rounded to the nearest whole number, halves up. -/
def roundDiv (n d : Nat) : Nat := (n + d / 2) / d

section

variable {n d e : Nat}

theorem roundDiv_mul_bounds (hd : 0 < d) : 2 * (roundDiv n d * d) ≤ 2 * n + d ∧ 2 * n < 2 * (roundDiv n d * d) + d + 1 := by
  have hlow : roundDiv n d * d ≤ n + d / 2 := Nat.div_mul_le_self _ _
  have hhigh : n + d / 2 < roundDiv n d * d + d := Nat.lt_div_mul_add hd
  omega

theorem roundDiv_le (hd : 0 < d) (h : n ≤ e * d) : roundDiv n d ≤ e := by
  have hlt : n + d / 2 < (e + 1) * d := by
    rw [Nat.succ_mul]
    omega
  exact Nat.le_of_lt_succ ((Nat.div_lt_iff_lt_mul hd).2 hlt)

theorem roundDiv_mul (hd : 0 < d) : roundDiv (e * d) d = e := by
  unfold roundDiv
  rw [Nat.add_comm, Nat.add_mul_div_right _ _ hd, Nat.div_eq_of_lt (by omega), Nat.zero_add]

theorem roundDiv_eq_zero (hd : 0 < d) : roundDiv n d = 0 ↔ 2 * n < d := by
  unfold roundDiv
  rw [Nat.div_eq_zero_iff_lt hd]
  omega

/-- A quotient at least half a unit rounds to something within half a unit of it. -/
theorem abs_roundDiv_sub_le (hd : 0 < d) : |(roundDiv n d : ℚ) - n / d| ≤ 1 / 2 := by
  have hd' : (0 : ℚ) < d := by exact_mod_cast hd
  obtain ⟨hlow, hhigh⟩ := roundDiv_mul_bounds (n := n) hd
  have hlow' : 2 * ((roundDiv n d : ℚ) * d) ≤ 2 * n + d := by exact_mod_cast hlow
  have hhigh' : (2 : ℚ) * n ≤ 2 * (roundDiv n d * d) + d := by exact_mod_cast Nat.le_of_lt_succ hhigh
  have hquot : (n : ℚ) / d * d = n := div_mul_cancel₀ _ hd'.ne'
  rw [abs_le]
  constructor
  · by_contra hlt
    have hlt := mul_lt_mul_of_pos_right (not_le.1 hlt) hd'
    rw [sub_mul, hquot] at hlt
    linarith
  · by_contra hlt
    have hlt := mul_lt_mul_of_pos_right (not_le.1 hlt) hd'
    rw [sub_mul, hquot] at hlt
    linarith

end

/-- A size within an extent, at an offset that leaves the same on both sides up to one unit. -/
structure Centred (offset size extent : Nat) : Prop where
  within : offset + size ≤ extent
  low : offset ≤ extent - (offset + size)
  high : extent - (offset + size) ≤ offset + 1

theorem centred_half {size extent : Nat} (h : size ≤ extent) : Centred ((extent - size) / 2) size extent := by
  constructor <;> omega

end Jwm
