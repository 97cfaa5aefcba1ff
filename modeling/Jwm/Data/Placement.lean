/-
Blocks of memory laid one after another, each at the next multiple of its alignment, and the checked arithmetic of machine
words that computes such a layout or refuses it.
-/
import Mathlib.Data.Nat.Bitwise

namespace Jwm

open BitVec

/-! ## Alignment -/

/-- The least multiple of `a` that is not below `n`. -/
def alignUp (n a : Nat) : Nat := (n + a - 1) / a * a

section

variable {n a m : Nat}

theorem le_alignUp (ha : 0 < a) : n ≤ alignUp n a := by
  unfold alignUp
  have hlt := Nat.lt_div_mul_add (a := n + a - 1) ha
  omega

theorem dvd_alignUp (n a : Nat) : a ∣ alignUp n a := Nat.dvd_mul_left ..

/-- Rounding up leaves the range of a word only where adding the rounding term does. -/
theorem lt_of_alignUp_lt (ha : 0 < a) (hm : a ∣ m) (h : alignUp n a < m) : n + (a - 1) < m := by
  obtain ⟨q, hq⟩ := dvd_alignUp n a
  obtain ⟨p, rfl⟩ := hm
  rw [hq] at h
  have hstep : a * (q + 1) ≤ a * p := Nat.mul_le_mul_left a (Nat.lt_of_mul_lt_mul_left h)
  have hle := le_alignUp (n := n) ha
  rw [hq] at hle
  rw [Nat.mul_succ] at hstep
  omega

end

/-! ## Words -/

namespace Word

/-- `checked_add`. -/
def checkedAdd {w : Nat} (x y : BitVec w) : Option (BitVec w) := if x.uaddOverflow y then none else some (x + y)

/-- `checked_mul`. -/
def checkedMul {w : Nat} (x y : BitVec w) : Option (BitVec w) := if x.umulOverflow y then none else some (x * y)

def checkedSub {w : Nat} (x y : BitVec w) : Option (BitVec w) := if x.usubOverflow y then none else some (x - y)

/-- `max`. -/
def maxOf {w : Nat} (x y : BitVec w) : BitVec w := if x ≤ y then y else x

/-- `clamp`. -/
def clampTo {w : Nat} (x low high : BitVec w) : BitVec w := if x < low then low else if high < x then high else x

section

variable {w : Nat} {x y z : BitVec w}

theorem eq_some_of_toNat {v : BitVec w} {n : Nat} (hv : v.toNat = n) : some v = some z ↔ z.toNat = n := by
  rw [Option.some.injEq, ← hv, ← toNat_inj]
  exact eq_comm

theorem checkedAdd_eq_some : checkedAdd x y = some z ↔ z.toNat = x.toNat + y.toNat := by
  unfold checkedAdd
  split
  · rename_i h
    rw [BitVec.uaddOverflow, decide_eq_true_eq] at h
    refine iff_of_false (fun e => nomatch e) fun e => ?_
    have hlt := z.isLt
    omega
  · rename_i h
    exact eq_some_of_toNat (toNat_add_of_not_uaddOverflow h)

theorem checkedMul_eq_some : checkedMul x y = some z ↔ z.toNat = x.toNat * y.toNat := by
  unfold checkedMul
  split
  · rename_i h
    rw [BitVec.umulOverflow, decide_eq_true_eq] at h
    refine iff_of_false (fun e => nomatch e) fun e => ?_
    have hlt := z.isLt
    omega
  · rename_i h
    exact eq_some_of_toNat (toNat_mul_of_not_umulOverflow h)

theorem checkedSub_eq_some : checkedSub x y = some z ↔ y.toNat ≤ x.toNat ∧ z.toNat = x.toNat - y.toNat := by
  unfold checkedSub
  split
  · rename_i h
    rw [BitVec.usubOverflow, decide_eq_true_eq] at h
    exact iff_of_false nofun fun e => absurd e.1 (Nat.not_le_of_lt h)
  · rename_i h
    rw [BitVec.usubOverflow, decide_eq_true_eq, Nat.not_lt] at h
    rw [eq_some_of_toNat (toNat_sub_of_le (le_def.2 h))]
    exact ⟨fun e => ⟨h, e⟩, fun e => e.2⟩

theorem exists_of_lt {n : Nat} (h : n < 2 ^ w) : ∃ z : BitVec w, z.toNat = n :=
  ⟨BitVec.ofNat w n, by rw [toNat_ofNat, Nat.mod_eq_of_lt h]⟩

theorem exists_checkedAdd (h : x.toNat + y.toNat < 2 ^ w) : ∃ z, checkedAdd x y = some z ∧ z.toNat = x.toNat + y.toNat := by
  obtain ⟨z, hz⟩ := exists_of_lt h
  exact ⟨z, checkedAdd_eq_some.2 hz, hz⟩

theorem exists_checkedMul (h : x.toNat * y.toNat < 2 ^ w) : ∃ z, checkedMul x y = some z ∧ z.toNat = x.toNat * y.toNat := by
  obtain ⟨z, hz⟩ := exists_of_lt h
  exact ⟨z, checkedMul_eq_some.2 hz, hz⟩

theorem exists_checkedSub (h : y.toNat ≤ x.toNat) : ∃ z, checkedSub x y = some z ∧ z.toNat = x.toNat - y.toNat := by
  obtain ⟨z, hz⟩ := exists_of_lt ((Nat.sub_le x.toNat y.toNat).trans_lt x.isLt)
  exact ⟨z, checkedSub_eq_some.2 ⟨h, hz⟩, hz⟩

theorem toNat_maxOf : (maxOf x y).toNat = max x.toNat y.toNat := by
  unfold maxOf
  split
  · exact (Nat.max_eq_right (le_def.1 ‹_›)).symm
  · exact (Nat.max_eq_left (Nat.le_of_not_le fun h => ‹¬ x ≤ y› (le_def.2 h))).symm

theorem toNat_clampTo {low high : BitVec w} : (clampTo x low high).toNat =
    if x.toNat < low.toNat then low.toNat else min x.toNat high.toNat := by
  unfold clampTo
  simp only [lt_def]
  split
  · rfl
  · split <;> omega

theorem toNat_pred {a : BitVec w} (ha : 0 < a.toNat) : (a - 1).toNat = a.toNat - 1 := by
  have hw : 0 < w := by
    refine Nat.pos_of_ne_zero ?_
    rintro rfl
    have hlt := a.isLt
    omega
  have hone : (1 : BitVec w).toNat = 1 := toNat_one hw
  rw [toNat_sub_of_le (le_def.2 (by rw [hone]; exact ha)), hone]

theorem dvd_two_pow {a : BitVec w} (ha : a.toNat.isPowerOfTwo) : a.toNat ∣ 2 ^ w := by
  obtain ⟨k, hk⟩ := ha
  have hlt := a.isLt
  rw [hk] at hlt ⊢
  exact Nat.pow_dvd_pow 2 ((Nat.pow_lt_pow_iff_right (by decide)).1 hlt).le

theorem toNat_and_not_pred {a : BitVec w} {k : Nat} (ha : a.toNat = 2 ^ k) :
    (x &&& ~~~(a - 1)).toNat = x.toNat / 2 ^ k * 2 ^ k := by
  have hlow : (a - 1).toNat = 2 ^ k - 1 := by
    rw [toNat_pred (ha ▸ Nat.two_pow_pos k), ha]
  have hshift : x &&& ~~~(a - 1) = (x >>> k) <<< k := by
    refine eq_of_getLsbD_eq fun i hi => ?_
    have hbit : (a - 1).getLsbD i = decide (i < k) := by
      rw [BitVec.getLsbD, hlow, Nat.testBit_two_pow_sub_one]
    rw [getLsbD_and, getLsbD_not, hbit, getLsbD_shiftLeft, getLsbD_ushiftRight]
    by_cases hik : i < k
    · simp [hi, hik]
    · simp [hi, hik, Nat.add_sub_cancel' (Nat.le_of_not_lt hik)]
  rw [hshift, toNat_shiftLeft, toNat_ushiftRight, Nat.shiftRight_eq_div_pow, Nat.shiftLeft_eq]
  exact Nat.mod_eq_of_lt ((Nat.div_mul_le_self _ _).trans_lt x.isLt)

/-- `(value + align - 1) & !(align - 1)`, unless the sum overflows. -/
def checkedAlignUp (x a : BitVec w) : Option (BitVec w) := (checkedAdd x (a - 1)).map (· &&& ~~~(a - 1))

theorem checkedAlignUp_eq_some {a : BitVec w} (ha : a.toNat.isPowerOfTwo) :
    checkedAlignUp x a = some z ↔ z.toNat = alignUp x.toNat a.toNat := by
  have hdvd := dvd_two_pow ha
  obtain ⟨k, hk⟩ := ha
  have hpos : 0 < a.toNat := hk ▸ Nat.two_pow_pos k
  have hmask : ∀ sum : BitVec w, sum.toNat = x.toNat + (a - 1).toNat →
      (sum &&& ~~~(a - 1)).toNat = alignUp x.toNat a.toNat := by
    intro sum hsum
    rw [toNat_and_not_pred hk, hsum, toNat_pred hpos, ← hk]
    unfold alignUp
    rw [Nat.add_sub_assoc hpos]
  unfold checkedAlignUp
  rw [Option.map_eq_some_iff]
  refine ⟨fun h => ?_, fun hz => ?_⟩
  · obtain ⟨sum, hsum, hz⟩ := h
    rw [← hz]
    exact hmask sum (checkedAdd_eq_some.1 hsum)
  · -- the sum fits because the rounded value does
    have hlt : x.toNat + (a - 1).toNat < 2 ^ w := by
      rw [toNat_pred hpos]
      exact lt_of_alignUp_lt hpos hdvd (hz ▸ z.isLt)
    have hsum : (BitVec.ofNat w (x.toNat + (a - 1).toNat)).toNat = x.toNat + (a - 1).toNat := by
      rw [toNat_ofNat, Nat.mod_eq_of_lt hlt]
    exact ⟨_, checkedAdd_eq_some.2 hsum, eq_of_toNat_eq ((hmask _ hsum).trans hz.symm)⟩

end

end Word

/-! ## Placement -/

/-- What has to be placed. -/
structure Block where
  size : Nat
  align : Nat

/-- Where it is. -/
structure Region where
  start : Nat
  size : Nat

namespace Region

def stop (r : Region) : Nat := r.start + r.size

def Apart (r r' : Region) : Prop := r.stop ≤ r'.start ∨ r'.stop ≤ r.start

end Region

def place : Nat → List Block → List Region
  | _, [] => []
  | cursor, b :: bs => ⟨alignUp cursor b.align, b.size⟩ :: place (alignUp cursor b.align + b.size) bs

def placeEnd : Nat → List Block → Nat
  | cursor, [] => cursor
  | cursor, b :: bs => placeEnd (alignUp cursor b.align + b.size) bs

section

variable {bs : List Block} {cursor : Nat}

theorem le_placeEnd : ∀ {bs : List Block} {cursor : Nat}, (∀ b ∈ bs, 0 < b.align) → cursor ≤ placeEnd cursor bs
  | [], _, _ => Nat.le_refl _
  | b :: bs, cursor, h => by
    have hrest := @le_placeEnd _ (alignUp cursor b.align + b.size) fun b' hb' => h b' (List.mem_cons_of_mem _ hb')
    have hstart := le_alignUp (n := cursor) (h b (List.mem_cons_self ..))
    unfold placeEnd
    omega

/-- Every region lies behind the cursor and ends where the last one does, or before. -/
theorem place_within : ∀ {bs : List Block} {cursor : Nat}, (∀ b ∈ bs, 0 < b.align) →
    ∀ r ∈ place cursor bs, cursor ≤ r.start ∧ r.stop ≤ placeEnd cursor bs
  | [], _, _, r, hr => absurd hr List.not_mem_nil
  | b :: bs, cursor, h, r, hr => by
    have hpos : ∀ b' ∈ bs, 0 < b'.align := fun b' hb' => h b' (List.mem_cons_of_mem _ hb')
    have hstart := le_alignUp (n := cursor) (h b (List.mem_cons_self ..))
    rcases List.mem_cons.1 hr with rfl | hr
    · exact ⟨hstart, le_placeEnd hpos⟩
    · obtain ⟨hbehind, hend⟩ := place_within hpos r hr
      exact ⟨by omega, hend⟩

theorem place_apart : ∀ {bs : List Block} {cursor : Nat}, (∀ b ∈ bs, 0 < b.align) →
    (place cursor bs).Pairwise Region.Apart
  | [], _, _ => .nil
  | b :: bs, cursor, h => by
    have hpos : ∀ b' ∈ bs, 0 < b'.align := fun b' hb' => h b' (List.mem_cons_of_mem _ hb')
    exact List.pairwise_cons.2 ⟨fun r hr => .inl (place_within hpos r hr).1, place_apart hpos⟩

/-- Every region is as long as its block and starts at a multiple of its alignment. -/
theorem place_fits : ∀ (bs : List Block) (cursor : Nat),
    List.Forall₂ (fun b r => r.size = b.size ∧ b.align ∣ r.start) bs (place cursor bs)
  | [], _ => .nil
  | b :: bs, cursor => .cons ⟨rfl, dvd_alignUp cursor b.align⟩ (place_fits bs _)

end

end Jwm
