/-
Truncated products of a length and a ratio (`(extent as f32 * m_fact) as i32`): below the length, whatever the
roundings, for a ratio up to `0.95`.
-/
import Jwm.Layout.Geometry
import Jwm.Data.FloatRounding

namespace Jwm.F32

open Float.Model Float.Model.UnpackedFloat FloatRounding UnpackedFloat Format Int32

/-! ## Comparisons -/

theorem lt_iff (a b : Float32) : a < b ↔ a.toModel.unpack.compare b.toModel.unpack = some .lt := by
  have hmodel : a < b ↔ (a.toModel.unpack.compare b.toModel.unpack == some .lt) = true := by
    change decide (a.toModel < b.toModel) = true ↔ _
    rw [decide_eq_true_iff]
    rfl
  rw [hmodel, beq_iff_eq]

theorem le_iff (a b : Float32) : a ≤ b ↔ (a.toModel.unpack.compare b.toModel.unpack).any (·.isLE) = true := by
  change decide (a.toModel ≤ b.toModel) = true ↔ _
  rw [decide_eq_true_iff]
  rfl

theorem compare_swap (u v : UnpackedFloat) : v.compare u = (u.compare v).map Ordering.swap := by
  cases u with
  | notANumber => cases v <;> rfl
  | infinity sign =>
    cases v with
    | infinity sign' => cases sign <;> cases sign' <;> rfl
    | notANumber => rfl
    | zero sign' => cases sign <;> rfl
    | finite sign' m e hm => cases sign <;> cases sign' <;> rfl
  | zero sign =>
    cases v with
    | notANumber | zero sign' => rfl
    | infinity sign' | finite sign' m e hm => cases sign' <;> rfl
  | finite sign m e hm =>
    cases v with
    | notANumber => rfl
    | infinity sign' => cases sign' <;> cases sign <;> rfl
    | zero sign' => cases sign <;> rfl
    | finite sign' m' e' hm' =>
      have hthen : ((compare e e').then (compare m m')).swap = (compare e' e).then (compare m' m) := by
        rw [Ordering.swap_then, Int.compare_swap, Nat.compare_swap]
      cases sign <;> cases sign'
      · exact congrArg (fun o => some (Ordering.swap o)) hthen.symm
      · rfl
      · rfl
      · exact congrArg some hthen.symm

variable {a b lo hi : Float32} {m' ml mh n : Nat} {u : UnpackedFloat} {el eh : Int}

theorem not_lt_of_le (h : a ≤ b) : ¬ b < a := by
  rw [le_iff] at h
  rw [lt_iff, compare_swap]
  intro hlt
  obtain ⟨o, ho, hswap⟩ := Option.map_eq_some_iff.1 hlt
  rw [ho] at h
  cases o with
  | lt | eq => cases hswap
  | gt => cases h

theorem not_nan_of_le (h : a ≤ b) : b.toModel.isNaN = false := by
  rw [le_iff] at h
  unfold Float32.Model.isNaN
  generalize a.toModel.unpack = u at h
  generalize b.toModel.unpack = v at h ⊢
  cases v with
  | notANumber => cases u <;> cases h
  | infinity sign | zero sign | finite sign m e hm => rfl

variable {m : Nat} {e : Int}

theorem compare_positive {e' : Int} {hm : 0 < m} {hm' : 0 < m'} :
    (finite .positive m e hm).compare (.finite .positive m' e' hm') = some .lt ↔
      e < e' ∨ e = e' ∧ m < m' := by
  change some ((compare e e').then (compare m m')) = some .lt ↔ _
  rw [Option.some_inj, Ordering.then_eq_lt, Int.compare_eq_lt, Nat.compare_eq_lt, Int.compare_eq_eq]

/-- A number that is not below a positive one is infinite, or positive and not below by exponent and mantissa. -/
theorem positive_of_not_lt {hm : 0 < m} (hnan : u.isNaN = false) (h : u.compare (.finite .positive m e hm) ≠ some .lt) :
    u = .infinity .positive ∨
      ∃ m' e', ∃ hm' : 0 < m', u = .finite .positive m' e' hm' ∧ (e < e' ∨ e = e' ∧ m ≤ m') := by
  cases u with
  | notANumber => cases hnan
  | zero sign => exact absurd rfl h
  | infinity sign =>
    cases sign with
    | negative => exact absurd rfl h
    | positive => exact .inl rfl
  | finite sign m' e' hm' =>
    cases sign with
    | negative => exact absurd rfl h
    | positive =>
      refine .inr ⟨m', e', hm', rfl, ?_⟩
      rw [Ne, compare_positive] at h
      omega

theorem between_of_not_lt {hml : 0 < ml} {hmh : 0 < mh}
    (hnan : u.isNaN = false) (hlow : u.compare (.finite .positive ml el hml) ≠ some .lt)
    (hhigh : (finite .positive mh eh hmh).compare u ≠ some .lt) :
    ∃ m e, ∃ hm : 0 < m, u = .finite .positive m e hm ∧ (el < e ∨ el = e ∧ ml ≤ m) ∧ (e < eh ∨ e = eh ∧ m ≤ mh) := by
  rcases positive_of_not_lt hnan hlow with rfl | ⟨m, e, hm, rfl, hbelow⟩
  · exact absurd rfl hhigh
  · refine ⟨m, e, hm, rfl, hbelow, ?_⟩
    rw [Ne, compare_positive] at hhigh
    omega

variable {f : Float32}

theorem full_of_unpack {sign : Sign} {hm : 0 < m}
    (h : f.toModel.unpack = .finite sign m e hm) : Full binary32 m ∨ e = -149 := by
  unfold Float32.Model.unpack UnpackedFloat.unpack at h
  dsimp only at h
  split at h
  · split at h <;> cases h
  · split at h
    · rename_i hexponent
      split at h
      · cases h
      · cases h
        refine .inr ?_
        rw [hexponent]
        rfl
    · cases h
      refine .inl ⟨?_, ?_⟩
      · rw [BitVec.toNat_append]
        exact Nat.le_trans (by decide) Nat.left_le_or
      · exact BitVec.isLt _

/-! ## Ratios -/

/-- A positive number from `0.05` to `0.95`, as rounded to `f32`. -/
structure IsRatio (f : Float32) (m : Nat) (e : Int) : Prop where
  pos : 0 < m
  unpack : f.toModel.unpack = .finite .positive m e pos
  low : -28 ≤ e
  high : e < -24 ∨ e = -24 ∧ m ≤ 15938355

theorem IsRatio.full (h : IsRatio f m e) : Full binary32 m :=
  (full_of_unpack h.unpack).resolve_right (by have := h.low; omega)

theorem IsRatio.magnitude_le (h : IsRatio f m e) : magnitude m e ≤ 15938355 / 2 ^ 24 := by
  rcases h.high with he | ⟨rfl, hm⟩
  · have hm := h.full.high
    have hexp : (2 : ℚ) ^ e ≤ 2 ^ (-25 : Int) := zpow_le_zpow_right₀ (by norm_num) (by omega)
    have hcast : (m : ℚ) ≤ 2 ^ 24 := by exact_mod_cast hm.le
    calc magnitude m e ≤ 2 ^ 24 * 2 ^ (-25 : Int) := mul_le_mul hcast hexp (by positivity) (by positivity)
      _ ≤ 15938355 / 2 ^ 24 := by norm_num
  · have hcast : (m : ℚ) ≤ 15938355 := by exact_mod_cast hm
    unfold magnitude
    rw [zpow_neg, ← div_eq_mul_inv]
    exact div_le_div_of_nonneg_right hcast (by positivity)

/-- The bounds of the configuration, and those of the layouts that keep more to both sides. -/
theorem isRatio_of_not_lt (hml : 0 < ml) (hmh : 0 < mh)
    (hlo : lo.toModel.unpack = .finite .positive ml el hml) (hhi : hi.toModel.unpack = .finite .positive mh eh hmh)
    (hel : -28 ≤ el) (heh : eh ≤ -24) (hratio : mh ≤ 15938355) (hnan : f.toModel.isNaN = false) (hlow : ¬ f < lo)
    (hhigh : ¬ hi < f) : ∃ m e, IsRatio f m e := by
  rw [lt_iff, hlo] at hlow
  rw [lt_iff, hhi] at hhigh
  obtain ⟨m, e, hm, hunpack, hbelow, habove⟩ := between_of_not_lt hnan hlow hhigh
  refine ⟨m, e, hm, hunpack, by omega, ?_⟩
  omega

theorem isRatio_of_le (hlow : 0.05 ≤ f) (hhigh : f ≤ 0.95) : ∃ m e, IsRatio f m e :=
  isRatio_of_not_lt (by decide) (by decide) (show (0.05 : Float32).toModel.unpack = .finite .positive 13421773 (-28) _ from rfl)
    (show (0.95 : Float32).toModel.unpack = .finite .positive 15938355 (-24) _ from rfl) (by decide) (by decide) (by decide)
    (not_nan_of_le hlow) (not_lt_of_le hlow) (not_lt_of_le hhigh)

theorem isRatio_clamp (hml : 0 < ml) (hmh : 0 < mh)
    (hlo : lo.toModel.unpack = .finite .positive ml el hml) (hhi : hi.toModel.unpack = .finite .positive mh eh hmh)
    (hel : -28 ≤ el) (hel' : el < -24 ∨ el = -24 ∧ ml ≤ 15938355) (heh' : -28 ≤ eh) (heh : eh ≤ -24) (hratio : mh ≤ 15938355)
    (hnan : f.toModel.isNaN = false) : ∃ m e, IsRatio (clamp f lo hi) m e := by
  unfold clamp
  split
  · exact ⟨ml, el, hml, hlo, hel, hel'⟩
  · split
    · exact ⟨mh, eh, hmh, hhi, heh', by omega⟩
    · rename_i hlow hhigh
      exact isRatio_of_not_lt hml hmh hlo hhi hel heh hratio hnan hlow hhigh

theorem isRatio_clamp_wide (hnan : f.toModel.isNaN = false) : ∃ m e, IsRatio (clamp f 0.05 0.95) m e :=
  isRatio_clamp (by decide) (by decide) (show (0.05 : Float32).toModel.unpack = .finite .positive 13421773 (-28) _ from rfl)
    (show (0.95 : Float32).toModel.unpack = .finite .positive 15938355 (-24) _ from rfl) (by decide) (by decide) (by decide)
    (by decide) (by decide) hnan

theorem isRatio_clamp_narrow (hnan : f.toModel.isNaN = false) : ∃ m e, IsRatio (clamp f 0.25 0.75) m e :=
  isRatio_clamp (by decide) (by decide) (show (0.25 : Float32).toModel.unpack = .finite .positive 8388608 (-25) _ from rfl)
    (show (0.75 : Float32).toModel.unpack = .finite .positive 12582912 (-24) _ from rfl) (by decide) (by decide) (by decide)
    (by decide) (by decide) hnan

/-! ## Products -/

theorem unpack_pack_binary32 (h : Full binary32 m) (hlow : -149 ≤ e) (hhigh : e ≤ 104)
    (hm : 0 < m) : (Float32.Model.pack (.finite .positive m e hm)).unpack = .finite .positive m e hm := by
  have hbiased : ((e + 150).toNat : Int) = e + binary32.exponentBias + binary32.mantissaBitsWithoutImplicit := by
    change ((e + 150).toNat : Int) = e + 127 + 23
    omega
  have htop : (e + 150).toNat + 1 < 2 ^ binary32.exponentBits := by
    change (e + 150).toNat + 1 < 256
    omega
  exact unpack_pack .positive h hbiased (by omega) htop hm

theorem unpack_ofI32 (hn : 1 ≤ n) (hmax : (n : Int) ≤ I32.max) :
    ∃ p e, ∃ hp : 0 < p, (ofI32 n).toModel.unpack = .finite .positive p e hp ∧ Full binary32 p ∧ -23 ≤ e ∧ e ≤ 8 ∧
      magnitude p e * 2 ^ 23 ≤ n * (2 ^ 23 + 1) := by
  obtain ⟨p, l, hp, hshape, hl, hfull, hbound⟩ :=
    @ofInt_bounds binary32 n (by omega) (by decide)
  change ofInt binary32 n = .finite .positive p (n.log2 - 23 + (l : Nat)) hp at hshape
  have hlog : n.log2 ≤ 30 := Nat.lt_succ_iff.1 ((Nat.log2_lt (by omega)).2 (by unfold I32.max at hmax; omega))
  refine ⟨p, n.log2 - 23 + (l : Nat), hp, ?_, hfull, by omega, by omega, hbound⟩
  change (Float32.Model.pack (ofInt binary32 n)).unpack = _
  rw [hshape]
  exact unpack_pack_binary32 hfull (by omega) (by omega) hp

theorem log2_mul_full (h : Full binary32 m) (h' : Full binary32 m') : ∃ k, (m * m').log2 = 23 + k ∧ 23 ≤ k ∧ k ≤ 24 := by
  obtain ⟨hlow, hhigh⟩ := h
  obtain ⟨hlow', hhigh'⟩ := h'
  have hpos : m * m' ≠ 0 := Nat.ne_of_gt (Nat.mul_pos (Nat.lt_of_lt_of_le (by decide) hlow) (Nat.lt_of_lt_of_le (by decide) hlow'))
  have hlow : 2 ^ 23 * 2 ^ 23 ≤ m * m' := Nat.mul_le_mul hlow hlow'
  have hhigh : m * m' < 2 ^ 24 * 2 ^ 24 := Nat.mul_lt_mul'' hhigh hhigh'
  have hlog : 46 ≤ (m * m').log2 := (Nat.le_log2 hpos).2 hlow
  have hlog' : (m * m').log2 < 48 := (Nat.log2_lt hpos).2 hhigh
  exact ⟨(m * m').log2 - 23, by omega, by omega, by omega⟩

theorem unpack_mul_ratio (hn : 1 ≤ n) (hmax : (n : Int) ≤ I32.max) (hf : IsRatio f m e) :
    ∃ p q, ∃ hp : 0 < p, (ofI32 n * f).toModel.unpack = .finite .positive p q hp ∧ magnitude p q < n := by
  obtain ⟨p, q, hp, hunpack, hfull, hlow, hhigh, hbound⟩ := unpack_ofI32 hn hmax
  obtain ⟨k, hlog, hk, hk'⟩ := log2_mul_full hfull hf.full
  have he := hf.low
  have he' := hf.high
  obtain ⟨r, l, hr, hshape, hl, hfull', hround⟩ := @roundWithAccuracy_bounds binary32 .positive (p * m) k (q + e) hlog
    (Nat.ne_of_gt (Nat.mul_pos hp hf.pos)) (by change -149 ≤ _; omega)
  refine ⟨r, q + e + (k + l : Nat), hr, ?_, ?_⟩
  · change (Float32.Model.pack (UnpackedFloat.mul binary32 (ofI32 n).toModel.unpack f.toModel.unpack)).unpack = _
    rw [hunpack, hf.unpack]
    change (Float32.Model.pack (roundWithAccuracy binary32 .positive (p * m) (q + e) .exact)).unpack = _
    rw [hshape]
    exact unpack_pack_binary32 hfull' (by omega) (by omega) hr
  · -- two roundings add less than what the ratio takes away
    change magnitude r _ * 2 ^ 23 ≤ magnitude (p * m) (q + e) * (2 ^ 23 + 1) at hround
    rw [magnitude_mul] at hround
    have hratio := hf.magnitude_le
    have hpq := magnitude_nonneg p q
    have hcast : (1 : ℚ) ≤ n := by exact_mod_cast hn
    have hproduct : magnitude p q * magnitude m e ≤ magnitude p q * (15938355 / 2 ^ 24) :=
      mul_le_mul_of_nonneg_left hratio hpq
    linarith

theorem toI32_mul_ratio {n : Int} (hn : 1 ≤ n) (hmax : n ≤ I32.max) (hf : IsRatio f m e) :
    0 ≤ toI32 (ofI32 n * f) ∧ toI32 (ofI32 n * f) < n := by
  obtain ⟨n, rfl⟩ := Int.eq_ofNat_of_zero_le (show 0 ≤ n by omega)
  obtain ⟨p, q, hp, hunpack, hbound⟩ := unpack_mul_ratio (by omega) hmax hf
  have hfloor : 0 ≤ ⌊magnitude p q⌋ := Int.floor_nonneg.2 (magnitude_nonneg p q)
  have hlt : ⌊magnitude p q⌋ < n := Int.floor_lt.2 (by exact_mod_cast hbound)
  have htrunc : toI32 (ofI32 n * f) = ⌊magnitude p q⌋ := by
    unfold toI32 Float32.Model.toInt32 UnpackedFloat.toInt32
    rw [hunpack]
    change (ofIntClamp (roundToInt .positive p q)).toInt = _
    rw [roundToInt_eq, toInt_ofIntClamp (Int.le_trans (by decide) hfloor) (Int.le_trans hlt.le hmax)]
  omega

/-! ## At least one -/

theorem toInt_ofIntClamp_pos {n : Int} (hn : 1 ≤ n) : 1 ≤ (ofIntClamp n).toInt := by
  by_cases hmax : n ≤ maxValue.toInt
  · rw [toInt_ofIntClamp (Int.le_trans (by decide) hn) hmax]
    exact hn
  · unfold ofIntClamp
    rw [dif_pos (Int.le_trans (by decide) hn), dif_neg hmax]
    decide

/-- `max(1.0) as i32` is at least one, for every number. -/
theorem one_le_toI32_max (f : Float32) : 1 ≤ toI32 (max f 1.0) := by
  have hone : (1.0 : Float32).toModel.unpack = .finite .positive (2 ^ 23) (-23) (by decide) := rfl
  have htrunc : 1 ≤ toI32 1.0 := by decide
  unfold max
  split
  · exact htrunc
  · rename_i hnan
    split
    · exact htrunc
    · rename_i hlt
      rw [lt_iff, hone] at hlt
      unfold toI32 Float32.Model.toInt32 UnpackedFloat.toInt32
      rcases positive_of_not_lt (Bool.eq_false_of_not_eq_true hnan) hlt with hinf | ⟨m, e, hm, hunpack, hbelow⟩
      · rw [hinf]
        decide
      · rw [hunpack]
        change 1 ≤ (ofIntClamp (roundToInt .positive m e)).toInt
        refine toInt_ofIntClamp_pos ?_
        rw [roundToInt_eq, Int.le_floor]
        have hmantissa := ((full_of_unpack hunpack).resolve_right (by omega)).low
        have hcast : (2 ^ 23 : ℚ) ≤ m := by exact_mod_cast hmantissa
        have hexp : (2 : ℚ) ^ (-23 : Int) ≤ 2 ^ e := zpow_le_zpow_right₀ (by norm_num) (by omega)
        calc ((1 : Int) : ℚ) = 2 ^ 23 * 2 ^ (-23 : Int) := by norm_num
          _ ≤ magnitude m e := mul_le_mul hcast hexp (by positivity) (by positivity)

theorem toI32_max (f : Float32) : toI32 (max f 1.0) = 1 ∨ toI32 (max f 1.0) = toI32 f := by
  have htrunc : toI32 1.0 = 1 := by decide
  unfold max
  split
  · exact .inl htrunc
  · split
    · exact .inl htrunc
    · exact .inr rfl

end Jwm.F32
