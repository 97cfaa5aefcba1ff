/-
Byte strings: big-endian integers, and bitmaps with bit `i` in byte `i / 8`, least significant first.
-/
import Mathlib.Algebra.Ring.Nat
import Mathlib.Data.List.Sort

namespace Jwm

open List

abbrev Byte := BitVec 8

/-- `u64::MAX`. -/
def u64Max : Nat := 2 ^ 64 - 1

/-- `l[a..b]`. -/
def slice {α : Type} (l : List α) (a b : Nat) : List α := (l.drop a).take (b - a)

/-! ## Big-endian integers -/

/-- `to_be_bytes` of an unsigned integer of `len` bytes. -/
def toBeBytes : Nat → Nat → List Byte
  | 0, _ => []
  | len + 1, n => toBeBytes len (n / 256) ++ [BitVec.ofNat 8 n]

/-- `from_be_bytes`. -/
def fromBeBytes (bytes : List Byte) : Nat := bytes.foldl (fun acc b => acc * 256 + b.toNat) 0

@[simp] theorem length_toBeBytes : ∀ len n, (toBeBytes len n).length = len
  | 0, _ => rfl
  | len + 1, n => by simp [toBeBytes, length_toBeBytes len]

theorem fromBeBytes_toBeBytes : ∀ {len n : Nat}, n < 256 ^ len → fromBeBytes (toBeBytes len n) = n
  | 0, n, h => by
    have : n = 0 := by simpa using h
    rw [this]; rfl
  | len + 1, n, h => by
    have hdiv : n / 256 < 256 ^ len := by
      rw [Nat.div_lt_iff_lt_mul (by decide)]
      rw [Nat.pow_succ] at h
      exact h
    have ih := fromBeBytes_toBeBytes hdiv
    unfold fromBeBytes at ih ⊢
    rw [toBeBytes, foldl_append, ih]
    simp only [foldl_cons, foldl_nil, BitVec.toNat_ofNat]
    omega

/-! ## Fields of a byte string -/

variable {α : Type}

variable {l m : List α} {a b n : Nat} {p : Nat → Bool}

theorem slice_append_right (h : l.length ≤ a) : slice (l ++ m) a b = slice m (a - l.length) (b - l.length) := by
  unfold slice
  rw [drop_append, drop_eq_nil_of_le h, nil_append]
  congr 1
  omega

theorem slice_append_self (h : b = l.length) : slice (l ++ m) 0 b = l := by
  subst h
  simp [slice]

theorem getD_append_right {d : α} (h : l.length ≤ a) : (l ++ m).getD a d = m.getD (a - l.length) d := by
  rw [getD_eq_getElem?_getD, getElem?_append_right h, ← getD_eq_getElem?_getD]

/-! ## Bitmaps -/

/-- `bitmap[i / 8] & (1 << (i % 8)) != 0`. -/
def bitSet (bitmap : List Byte) (i : Nat) : Bool := (bitmap.getD (i / 8) 0 &&& 1#8 <<< (i % 8)) != 0

/-- `bitmap[i / 8] |= 1 << (i % 8)`. -/
def markBit (bitmap : List Byte) (i : Nat) : List Byte := bitmap.modify (i / 8) (· ||| 1#8 <<< (i % 8))

/-- `u8::count_ones`. -/
def countOnes (b : Byte) : Nat := (List.range 8).countP (b.getLsbD ·)

theorem bitSet_eq (bitmap : List Byte) (i : Nat) : bitSet bitmap i = (bitmap.getD (i / 8) 0).getLsbD (i % 8) := by
  have hlt : i % 8 < 8 := Nat.mod_lt _ (by decide)
  unfold bitSet
  generalize bitmap.getD (i / 8) 0 = b
  rw [← BitVec.twoPow_eq, BitVec.and_twoPow]
  cases h : b.getLsbD (i % 8) with
  | false => simp
  | true =>
    rw [if_pos rfl, bne_iff_ne]
    intro h0
    have : (BitVec.twoPow 8 (i % 8)).getLsbD (i % 8) = true := by
      rw [BitVec.getLsbD_twoPow]; simpa using hlt
    rw [h0] at this
    simp at this

@[simp] theorem length_markBit (bitmap : List Byte) (i : Nat) : (markBit bitmap i).length = bitmap.length := by
  simp [markBit]

theorem bitSet_markBit {bitmap : List Byte} {i : Nat} (h : i / 8 < bitmap.length) (j : Nat) :
    bitSet (markBit bitmap i) j = (decide (j = i) || bitSet bitmap j) := by
  have hi : i % 8 < 8 := Nat.mod_lt _ (by decide)
  have hj : j % 8 < 8 := Nat.mod_lt _ (by decide)
  rw [bitSet_eq, bitSet_eq]
  unfold markBit
  rw [getD_eq_getElem?_getD, getD_eq_getElem?_getD, getElem?_modify]
  by_cases hb : i / 8 = j / 8
  · rw [← hb, getElem?_eq_getElem h]
    simp only [if_true, Option.map_eq_map, Option.map_some, Option.getD_some, BitVec.getLsbD_or]
    rw [← BitVec.twoPow_eq, BitVec.getLsbD_twoPow, Bool.or_comm]
    congr 1
    have : i % 8 = j % 8 ↔ j = i := by omega
    simp [hi, this]
  · have hne : j ≠ i := fun e => hb (by rw [e])
    cases bitmap[j / 8]? <;> simp [hne, hb]

theorem bitSet_foldl_markBit : ∀ {l : List Nat} {bitmap : List Byte}, (∀ i ∈ l, i / 8 < bitmap.length) → ∀ j,
    bitSet (l.foldl markBit bitmap) j = (decide (j ∈ l) || bitSet bitmap j)
  | [], _, _, j => by simp
  | i :: l, bitmap, h, j => by
    have hi := h i (mem_cons_self ..)
    have hl : ∀ k ∈ l, k / 8 < (markBit bitmap i).length := fun k hk => by
      rw [length_markBit]; exact h k (mem_cons_of_mem _ hk)
    rw [foldl_cons, bitSet_foldl_markBit hl j, bitSet_markBit hi j]
    by_cases hj : j = i <;> by_cases hm : j ∈ l <;> simp [hj, hm]

@[simp] theorem length_foldl_markBit : ∀ (l : List Nat) (bitmap : List Byte),
    (l.foldl markBit bitmap).length = bitmap.length
  | [], _ => rfl
  | i :: l, bitmap => by rw [foldl_cons, length_foldl_markBit l, length_markBit]

theorem bitSet_replicate_zero (n j : Nat) : bitSet (List.replicate n 0) j = false := by
  rw [bitSet_eq]
  have : (replicate n (0 : Byte)).getD (j / 8) 0 = 0 := by
    rw [getD_eq_getElem?_getD, getElem?_replicate]
    split <;> rfl
  rw [this]
  simp

theorem sum_countOnes : ∀ bitmap : List Byte,
    (bitmap.map countOnes).sum = (List.range (8 * bitmap.length)).countP (bitSet bitmap)
  | [] => rfl
  | b :: bitmap => by
    have hsplit : List.range (8 * (bitmap.length + 1)) =
        List.range 8 ++ (List.range (8 * bitmap.length)).map (8 + ·) := by
      rw [Nat.mul_succ, Nat.add_comm, range_add]
    have head : (range 8).countP (bitSet (b :: bitmap)) = countOnes b := by
      refine countP_congr fun i hi => ?_
      have hi : i < 8 := mem_range.1 hi
      rw [bitSet_eq, Nat.div_eq_of_lt hi, Nat.mod_eq_of_lt hi]
      rfl
    have tail : ((range (8 * bitmap.length)).map (8 + ·)).countP (bitSet (b :: bitmap)) =
        (range (8 * bitmap.length)).countP (bitSet bitmap) := by
      rw [countP_map]
      refine countP_congr fun i _ => ?_
      have h1 : (8 + i) / 8 = i / 8 + 1 := by omega
      have h2 : (8 + i) % 8 = i % 8 := by omega
      rw [Function.comp_apply, bitSet_eq, bitSet_eq, h1, h2]
      rfl
    rw [map_cons, sum_cons, sum_countOnes bitmap, length_cons, hsplit, countP_append, head, tail]

/-! ## Ascending index lists -/

/-- An ascending list is what a scan of the indices below a bound picks out of it. -/
theorem filter_range_of_ascending {l : List Nat} (hs : l.Pairwise (· < ·)) (hl : ∀ i ∈ l, i < n)
    (hp : ∀ i, i < n → (p i = true ↔ i ∈ l)) : (List.range n).filter p = l := by
  refine (pairwise_lt_range.filter p).eq_of_mem_iff hs fun i => ?_
  rw [mem_filter, mem_range]
  constructor
  · rintro ⟨hi, h⟩; exact (hp i hi).1 h
  · intro h; exact ⟨hl i h, (hp i (hl i h)).2 h⟩

theorem eq_countP_of_scan {slot index : Nat} (h : ((List.range n).filter p)[slot]? = some index) :
    slot = (List.range index).countP p := by
  obtain ⟨hmem, hp⟩ := mem_filter.1 (mem_of_getElem? h)
  have hlt : index < n := mem_range.1 hmem
  have hsplit : (range n).filter p =
      (range index).filter p ++ ((range (n - index)).map (index + ·)).filter p := by
    rw [← filter_append, ← range_add, Nat.add_sub_cancel' (Nat.le_of_lt hlt)]
  have hat : ((range n).filter p)[(range index).countP p]? = some index := by
    rw [hsplit, getElem?_append_right (by rw [countP_eq_length_filter]), countP_eq_length_filter, Nat.sub_self,
      show n - index = n - index - 1 + 1 by omega, range_succ_eq_map, map_cons, Nat.add_zero, filter_cons_of_pos hp]
    rfl
  have hnodup : ((range n).filter p).Nodup := nodup_range.filter p
  obtain ⟨h1, e1⟩ := List.getElem?_eq_some_iff.1 h
  obtain ⟨h2, e2⟩ := List.getElem?_eq_some_iff.1 hat
  exact hnodup.getElem_inj_iff.1 (e1.trans e2.symm)

end Jwm
