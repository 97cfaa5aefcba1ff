/-
Bounds over the model of floating-point numbers: rounding adds at most one part in the width of the mantissa, a number
of full mantissa survives its packing, and the conversion to an integer truncates.
-/
import Mathlib

namespace Jwm.FloatRounding

open Float.Model Float.Model.UnpackedFloat ExtendedMantissa UnpackedFloat BitVec

variable {spec : Format}

def magnitude (m : Nat) (e : Int) : ℚ := m * 2 ^ e

theorem magnitude_nonneg (m : Nat) (e : Int) : 0 ≤ magnitude m e := by
  unfold magnitude
  positivity

theorem magnitude_mul (m m' : Nat) (e e' : Int) : magnitude (m * m') (e + e') = magnitude m e * magnitude m' e' := by
  unfold magnitude
  rw [zpow_add₀ (by norm_num), Nat.cast_mul]
  ring

/-- Moving a factor of `2 ^ k` between mantissa and exponent. -/
theorem magnitude_shift (m k : Nat) (e : Int) : magnitude (m * 2 ^ k) e = magnitude m (e + k) := by
  unfold magnitude
  rw [zpow_add₀ (by norm_num), Nat.cast_mul, Nat.cast_pow, Nat.cast_ofNat, zpow_natCast]
  ring

theorem magnitude_mul_natCast (m n : Nat) (e : Int) : magnitude (m * n) e = magnitude m e * n := by
  unfold magnitude
  rw [Nat.cast_mul]
  ring

variable {m : Nat} {e : Int}

theorem magnitude_mono {m' : Nat} (h : m ≤ m') (e : Int) : magnitude m e ≤ magnitude m' e := by
  exact mul_le_mul_of_nonneg_right (Nat.cast_le.2 h) (by positivity)

/-! ## Mantissas of full width -/

/-- The implicit bit is set. -/
structure Full (spec : Format) (m : Nat) : Prop where
  low : 2 ^ spec.mantissaBitsWithoutImplicit ≤ m
  high : m < 2 ^ (spec.mantissaBitsWithoutImplicit + 1)

theorem Full.log2 (h : Full spec m) : m.log2 = spec.mantissaBitsWithoutImplicit :=
  (Nat.log2_eq_iff (by have := Nat.two_pow_pos spec.mantissaBitsWithoutImplicit; have := h.low; omega)).2 ⟨h.low, h.high⟩

theorem Full.pos (h : Full spec m) : 0 < m := Nat.lt_of_lt_of_le (Nat.two_pow_pos _) h.low

/-! ## Rounding -/

theorem mantissa_shiftRight (em : ExtendedMantissa) (n : Nat) : (em >>> n).mantissa = em.mantissa / 2 ^ n := by
  induction n with
  | zero => exact (Nat.div_one _).symm
  | succ n ih =>
    change (em >>> n).mantissa / 2 = _
    rw [ih, Nat.div_div_eq_div_mul, Nat.pow_succ]

theorem roundedMantissa_bounds (em : ExtendedMantissa) :
    em.mantissa ≤ em.roundedMantissa ∧ em.roundedMantissa ≤ em.mantissa + 1 := by
  obtain ⟨m, round, sticky⟩ := em
  cases round <;> cases sticky
  · exact ⟨Nat.le_refl _, Nat.le_succ _⟩
  · exact ⟨Nat.le_refl _, Nat.le_succ _⟩
  · refine ⟨Nat.le_add_right _ _, Nat.add_le_add_left ?_ _⟩
    exact Nat.le_of_lt_succ (Nat.mod_lt _ (by decide))
  · exact ⟨Nat.le_succ _, Nat.le_refl _⟩

theorem shiftToTargetExponent_full {k : Nat} (hm : m.log2 = spec.mantissaBitsWithoutImplicit + k)
    (he : spec.minExponent ≤ e + k) :
    shiftToTargetExponent spec m e .exact = (ofMantissaAndAccuracy m .exact >>> k, e + k) := by
  have htarget : (spec.targetExponent (totalExponent m e) - e).toNat = k := by
    unfold Format.targetExponent totalExponent Format.mantissaBits
    omega
  unfold shiftToTargetExponent shiftToExponent
  dsimp only
  rw [htarget]

/-- A rounded mantissa has full width, but for a carry, which leaves a power of two. -/
theorem shiftToTargetExponent_carry {r : Nat} {e : Int} (hlow : 2 ^ spec.mantissaBitsWithoutImplicit ≤ r)
    (hhigh : r ≤ 2 ^ (spec.mantissaBitsWithoutImplicit + 1)) (he : spec.minExponent ≤ e) :
    ∃ l, l ≤ 1 ∧ Full spec (shiftToTargetExponent spec r e .exact).1.mantissa ∧
      (shiftToTargetExponent spec r e .exact).1.mantissa * 2 ^ l = r ∧
      (shiftToTargetExponent spec r e .exact).2 = e + (l : Nat) := by
  rcases Nat.lt_or_eq_of_le hhigh with hlt | rfl
  · have hfull : Full spec r := ⟨hlow, hlt⟩
    rw [shiftToTargetExponent_full (k := 0) hfull.log2 (by omega)]
    have hmantissa : (ofMantissaAndAccuracy r .exact >>> 0).mantissa = r :=
      (mantissa_shiftRight _ 0).trans (Nat.div_one r)
    exact ⟨0, by decide, by rwa [hmantissa], by rw [hmantissa, Nat.pow_zero, Nat.mul_one], rfl⟩
  · rw [shiftToTargetExponent_full (k := 1) Nat.log2_two_pow (by omega)]
    have hmantissa : (ofMantissaAndAccuracy (2 ^ (spec.mantissaBitsWithoutImplicit + 1)) .exact >>> 1).mantissa =
        2 ^ spec.mantissaBitsWithoutImplicit := by
      rw [mantissa_shiftRight, Nat.pow_succ]
      exact Nat.mul_div_cancel _ (by decide)
    refine ⟨1, Nat.le_refl _, ?_, ?_, rfl⟩
    · rw [hmantissa]
      exact ⟨Nat.le_refl _, Nat.pow_lt_pow_succ (by decide)⟩
    · rw [hmantissa, ← Nat.pow_add]

/-- Rounding a mantissa of at least full width adds at most one part in `2 ^ b` of it. -/
theorem roundWithAccuracy_bounds (sign : Sign) {m k : Nat} {e : Int} (hm : m.log2 = spec.mantissaBitsWithoutImplicit + k)
    (hpos : m ≠ 0) (he : spec.minExponent ≤ e + k) :
    ∃ p l, ∃ hp : 0 < p, roundWithAccuracy spec sign m e .exact = .finite sign p (e + (k + l : Nat)) hp ∧ l ≤ 1 ∧
      Full spec p ∧
      magnitude p (e + (k + l : Nat)) * 2 ^ spec.mantissaBitsWithoutImplicit ≤
        magnitude m e * (2 ^ spec.mantissaBitsWithoutImplicit + 1) := by
  obtain ⟨hlow, hhigh⟩ := (Nat.log2_eq_iff hpos).1 hm
  generalize hbits : spec.mantissaBitsWithoutImplicit = b at hm hlow hhigh ⊢
  have htwo : 0 < 2 ^ k := Nat.two_pow_pos k
  generalize hem : ofMantissaAndAccuracy m .exact >>> k = em
  have hmantissa : em.mantissa = m / 2 ^ k := by rw [← hem, mantissa_shiftRight]; rfl
  obtain ⟨hround, hround'⟩ := roundedMantissa_bounds em
  have hq : 2 ^ b ≤ em.mantissa := by
    rw [hmantissa, Nat.le_div_iff_mul_le htwo, ← Nat.pow_add]
    exact hlow
  have hq' : em.mantissa < 2 ^ (b + 1) := by
    rw [hmantissa, Nat.div_lt_iff_lt_mul htwo, ← Nat.pow_add, show b + 1 + k = b + k + 1 by omega]
    exact hhigh
  obtain ⟨l, hl, hfull, hcarry, hexponent⟩ := @shiftToTargetExponent_carry spec em.roundedMantissa (e + k)
    (by rw [hbits]; omega) (by rw [hbits]; omega) he
  have hshape : roundWithAccuracy spec sign m e .exact =
      .finite sign (shiftToTargetExponent spec em.roundedMantissa (e + k) .exact).1.mantissa (e + (k + l : Nat)) hfull.pos := by
    unfold roundWithAccuracy
    rw [shiftToTargetExponent_full (by rw [hbits, hm]) he, hem]
    dsimp only
    rw [dif_neg (Nat.ne_of_gt hfull.pos), hexponent, Nat.cast_add, ← Int.add_assoc]
  refine ⟨_, l, hfull.pos, hshape, hl, hfull, ?_⟩
  generalize (shiftToTargetExponent spec em.roundedMantissa (e + k) .exact).1.mantissa = p at hcarry
  -- the rounded quotient exceeds the exact one by less than one, and the shifted bits fill the width
  have hdiv : em.roundedMantissa * 2 ^ k ≤ m + 2 ^ k := by
    have hquot : m / 2 ^ k * 2 ^ k ≤ m := Nat.div_mul_le_self m (2 ^ k)
    have hstep : em.roundedMantissa * 2 ^ k ≤ (m / 2 ^ k + 1) * 2 ^ k :=
      Nat.mul_le_mul_right _ (by rw [← hmantissa]; exact hround')
    linarith
  have hbound : p * 2 ^ (k + l) * 2 ^ b ≤ m * (2 ^ b + 1) := by
    calc p * 2 ^ (k + l) * 2 ^ b = em.roundedMantissa * 2 ^ k * 2 ^ b := by rw [← hcarry, Nat.pow_add]; ring
      _ ≤ (m + 2 ^ k) * 2 ^ b := Nat.mul_le_mul_right _ hdiv
      _ = m * 2 ^ b + 2 ^ (b + k) := by rw [Nat.pow_add]; ring
      _ ≤ m * (2 ^ b + 1) := by rw [Nat.mul_add, Nat.mul_one]; exact Nat.add_le_add_left hlow _
  have hcast := magnitude_mono hbound e
  rwa [magnitude_mul_natCast _ (2 ^ b), magnitude_mul_natCast m, magnitude_shift, Nat.cast_add_one, Nat.cast_pow,
    Nat.cast_ofNat] at hcast

/-! ## From and to integers -/

theorem log2_mul_two_pow {n : Nat} (hn : n ≠ 0) (j : Nat) : (n * 2 ^ j).log2 = n.log2 + j := by
  obtain ⟨hlow, hhigh⟩ := (Nat.log2_eq_iff hn).1 rfl
  refine (Nat.log2_eq_iff (Nat.mul_ne_zero hn (Nat.ne_of_gt (Nat.two_pow_pos j)))).2 ⟨?_, ?_⟩
  · rw [Nat.pow_add]
    exact Nat.mul_le_mul_right _ hlow
  · rw [show n.log2 + j + 1 = n.log2 + 1 + j by omega, Nat.pow_add]
    exact Nat.mul_lt_mul_of_pos_right hhigh (Nat.two_pow_pos j)

theorem ofInt_bounds {n : Nat} (hn : n ≠ 0) (hmin : spec.minExponent ≤ -spec.mantissaBitsWithoutImplicit) :
    ∃ p l, ∃ hp : 0 < p, ofInt spec n = .finite .positive p (n.log2 - spec.mantissaBitsWithoutImplicit + (l : Nat)) hp ∧
      l ≤ 1 ∧ Full spec p ∧
      magnitude p (n.log2 - spec.mantissaBitsWithoutImplicit + (l : Nat)) * 2 ^ spec.mantissaBitsWithoutImplicit ≤
        n * (2 ^ spec.mantissaBitsWithoutImplicit + 1) := by
  have htarget : spec.targetExponent (totalExponent n 0) = n.log2 - spec.mantissaBitsWithoutImplicit := by
    unfold Format.targetExponent totalExponent Format.mantissaBits
    omega
  have hround : ofInt spec n = roundWithAccuracy spec .positive
      (n * 2 ^ (spec.mantissaBitsWithoutImplicit - n.log2)) (-(spec.mantissaBitsWithoutImplicit - n.log2 : Nat)) .exact := by
    unfold UnpackedFloat.ofInt UnpackedFloat.normalize
    rw [Int.compare_eq_gt.2 (by omega)]
    unfold UnpackedFloat.round decreaseExponent
    rw [Int.toNat_natCast, htarget]
    dsimp only
    rw [Nat.shiftLeft_eq, Int.zero_sub,
      show (-((n.log2 : Int) - spec.mantissaBitsWithoutImplicit)).toNat = spec.mantissaBitsWithoutImplicit - n.log2 by omega,
      Int.zero_sub]
  obtain ⟨p, l, hp, hshape, hl, hfull, hbound⟩ := @roundWithAccuracy_bounds spec .positive
    (n * 2 ^ (spec.mantissaBitsWithoutImplicit - n.log2)) (n.log2 - spec.mantissaBitsWithoutImplicit)
    (-(spec.mantissaBitsWithoutImplicit - n.log2 : Nat)) (by rw [log2_mul_two_pow hn]; omega)
    (Nat.mul_ne_zero hn (Nat.ne_of_gt (Nat.two_pow_pos _))) (by omega)
  have hexponent : -((spec.mantissaBitsWithoutImplicit - n.log2 : Nat) : Int) +
      (n.log2 - spec.mantissaBitsWithoutImplicit + l : Nat) = n.log2 - spec.mantissaBitsWithoutImplicit + (l : Nat) := by
    omega
  rw [magnitude_shift, Int.add_left_neg] at hbound
  rw [hexponent] at hshape hbound
  refine ⟨p, l, hp, hround.trans hshape, hl, hfull, ?_⟩
  unfold magnitude at hbound ⊢
  rwa [zpow_zero, mul_one] at hbound

theorem roundToInt_eq (m : Nat) (e : Int) : roundToInt .positive m e = ⌊magnitude m e⌋ := by
  unfold roundToInt decreaseExponent shiftToExponent magnitude
  dsimp only [Sign.apply]
  rw [mantissa_shiftRight, Nat.shiftLeft_eq, Int.sub_zero]
  rcases Int.le_total 0 e with he | he
  · obtain ⟨k, rfl⟩ := Int.eq_ofNat_of_zero_le he
    rw [Int.toNat_natCast, Int.sub_self, Int.sub_zero, Int.toNat_zero, Nat.pow_zero, Nat.div_one, zpow_natCast]
    exact_mod_cast (Int.floor_natCast (R := ℚ) (m * 2 ^ k)).symm
  · obtain ⟨k, hk⟩ := Int.eq_ofNat_of_zero_le (show 0 ≤ -e by omega)
    have he : e = -k := by omega
    subst he
    rw [show (-(k : Int)).toNat = 0 by omega, Nat.pow_zero, Nat.mul_one,
      show (0 - (-(k : Int) - (0 : Nat))).toNat = k by omega, zpow_neg, zpow_natCast, ← div_eq_mul_inv]
    exact_mod_cast (Rat.floor_natCast_div_natCast m (2 ^ k)).symm

/-! ## Packing -/

theorem unpackSign_packComponents (sign : Sign) (e : BitVec spec.exponentBits) (m : BitVec spec.mantissaBitsWithoutImplicit) :
    Sign.ofBitVec (unpackSign (packComponents spec sign e m)) = sign := by
  have hbit : unpackSign (packComponents spec sign e m) = sign.toBitVec := by
    refine eq_of_getLsbD_eq fun i hi => ?_
    obtain rfl : i = 0 := by omega
    simp [unpackSign, packComponents, getLsbD_append, getElem_append]
  rw [hbit]
  cases sign <;> rfl

theorem Full.toNat_append (h : Full spec m) : (1#1 ++ BitVec.ofNat spec.mantissaBitsWithoutImplicit m).toNat = m := by
  obtain ⟨hlow, hhigh⟩ := h
  rw [Nat.pow_succ] at hhigh
  rw [BitVec.toNat_append, @BitVec.toNat_ofNat m, ← Nat.shiftLeft_add_eq_or_of_lt (Nat.mod_lt _ (Nat.two_pow_pos _)),
    Nat.mod_eq_sub_mod hlow, Nat.mod_eq_of_lt (by omega), Nat.shiftLeft_eq]
  change 1 * _ + _ = _
  omega

/-- A number of full mantissa and an exponent in range is what its packing holds. -/
theorem unpack_pack (sign : Sign) (h : Full spec m) {biased : Nat}
    (hbiased : (biased : Int) = e + spec.exponentBias + spec.mantissaBitsWithoutImplicit) (hlow : 1 ≤ biased)
    (hhigh : biased + 1 < 2 ^ spec.exponentBits) (hm : 0 < m) :
    unpack spec (UnpackedFloat.pack spec (.finite sign m e hm)) = .finite sign m e hm := by
  have hpack : UnpackedFloat.pack spec (.finite sign m e hm) =
      packComponents spec sign (BitVec.ofNat _ biased) (BitVec.ofNat _ m) := by
    unfold UnpackedFloat.pack
    rw [← hbiased, Int.toNat_natCast, if_neg (by omega), h.log2, if_pos (show spec.mantissaBitsWithoutImplicit + 1 = spec.mantissaBits from Nat.add_comm _ _)]
  have hexponent : (BitVec.ofNat spec.exponentBits biased).toNat = biased := by
    rw [BitVec.toNat_ofNat, Nat.mod_eq_of_lt (by omega)]
  have hones : BitVec.ofNat spec.exponentBits biased ≠ -1#_ := by
    intro heq
    have hnat := congrArg BitVec.toNat heq
    rw [hexponent, neg_one_eq_allOnes, toNat_allOnes] at hnat
    omega
  have hzero : BitVec.ofNat spec.exponentBits biased ≠ 0#_ := by
    intro heq
    have hnat := congrArg BitVec.toNat heq
    rw [hexponent, toNat_zero] at hnat
    omega
  rw [hpack]
  unfold UnpackedFloat.unpack
  simp only [unpackExponent_packComponents, unpackMantissa_packComponents, unpackSign_packComponents, hexponent,
    if_neg hones, if_neg hzero]
  congr 1
  · exact h.toNat_append
  · omega

end Jwm.FloatRounding
