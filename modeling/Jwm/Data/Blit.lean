/-
Copying segments into a buffer. Where the segments that cover a position agree on its value the
buffer holds that value afterwards; where none covers it the buffer is as it was.
-/
import Jwm.Data.Bytes

namespace Jwm

open List

variable {α : Type}

/-- `dst[offset..offset + src.len()].copy_from_slice(src)`. -/
def copyAt (dst : List α) (offset : Nat) (src : List α) : List α :=
  dst.take offset ++ (src.take (dst.length - offset) ++ dst.drop (offset + src.length))

/-- Copy the segments one after another, each to its offset. -/
def blit (dst : List α) (writes : List (Nat × List α)) : List α :=
  writes.foldl (fun dst w => copyAt dst w.1 w.2) dst

@[simp] theorem length_copyAt (dst : List α) (offset : Nat) (src : List α) :
    (copyAt dst offset src).length = dst.length := by
  simp only [copyAt, length_append, length_take, length_drop]
  omega

@[simp] theorem length_blit : ∀ (writes : List (Nat × List α)) (dst : List α), (blit dst writes).length = dst.length
  | [], _ => rfl
  | w :: writes, dst => by
    show (blit (copyAt dst w.1 w.2) writes).length = _
    rw [length_blit writes, length_copyAt]

variable {l dst : List α} {a b i : Nat} {w : Nat × List α}

theorem getElem?_slice (h : a + i < b) : (slice l a b)[i]? = l[a + i]? := by
  unfold slice
  rw [getElem?_take, if_pos (by omega), getElem?_drop]

theorem length_slice (h : b ≤ l.length) : (slice l a b).length = b - a := by
  unfold slice
  rw [length_take, length_drop]
  omega

/-- The segment `w` covers position `i`. -/
def Covers (w : Nat × List α) (i : Nat) : Prop := w.1 ≤ i ∧ i < w.1 + w.2.length

theorem getElem?_copyAt_of_covers (hc : Covers w i) (hi : i < dst.length) : (copyAt dst w.1 w.2)[i]? = w.2[i - w.1]? := by
  obtain ⟨h1, h2⟩ := hc
  have htake : (dst.take w.1).length = w.1 := by
    rw [length_take]
    omega
  have hlt : i - w.1 < (w.2.take (dst.length - w.1)).length := by
    rw [length_take]
    omega
  unfold copyAt
  rw [getElem?_append_right (by omega), htake, getElem?_append_left hlt, getElem?_take, if_pos (by omega)]

theorem getElem?_copyAt_of_not_covers (hc : ¬ Covers w i) : (copyAt dst w.1 w.2)[i]? = dst[i]? := by
  by_cases hi : i < dst.length
  · unfold copyAt
    by_cases h1 : i < w.1
    · rw [getElem?_append_left (by rw [length_take]; omega), getElem?_take, if_pos h1]
    · have h2 : w.1 + w.2.length ≤ i := by
        unfold Covers at hc
        omega
      have htake : (dst.take w.1).length = w.1 := by
        rw [length_take]
        omega
      have hsrc : (w.2.take (dst.length - w.1)).length = w.2.length := by
        rw [length_take]
        omega
      rw [getElem?_append_right (by omega), htake, getElem?_append_right (by omega), hsrc, getElem?_drop]
      congr 1
      omega
  · rw [getElem?_eq_none (by rw [length_copyAt]; omega), getElem?_eq_none (by omega)]

theorem getElem?_blit_of_not_covered : ∀ {writes : List (Nat × List α)} {dst : List α} {i : Nat},
    (∀ w ∈ writes, ¬ Covers w i) → (blit dst writes)[i]? = dst[i]?
  | [], _, _, _ => rfl
  | w :: writes, dst, i, h => by
    show (blit (copyAt dst w.1 w.2) writes)[i]? = _
    rw [getElem?_blit_of_not_covered fun v hv => h v (mem_cons_of_mem _ hv),
      getElem?_copyAt_of_not_covers (h w (mem_cons_self ..))]

/-- A covered position holds the value on which the segments that cover it agree. -/
theorem getElem?_blit_of_covered : ∀ {writes : List (Nat × List α)} {dst : List α} {i : Nat} {v : Option α},
    (∀ w ∈ writes, Covers w i → w.2[i - w.1]? = v) → (∃ w ∈ writes, Covers w i) → i < dst.length →
    (blit dst writes)[i]? = v
  | [], _, _, _, _, hex, _ => by
    obtain ⟨_, hw, _⟩ := hex
    exact absurd hw not_mem_nil
  | w :: writes, dst, i, v, h, hex, hi => by
    have hrest : ∀ u ∈ writes, Covers u i → u.2[i - u.1]? = v := fun u hu => h u (mem_cons_of_mem _ hu)
    show (blit (copyAt dst w.1 w.2) writes)[i]? = _
    by_cases hcov : ∃ u ∈ writes, Covers u i
    · exact getElem?_blit_of_covered hrest hcov (by rw [length_copyAt]; exact hi)
    · -- the last write to this position is the first one of the list
      have hw : Covers w i := by
        obtain ⟨u, hu, hc⟩ := hex
        rcases mem_cons.1 hu with rfl | hu
        · exact hc
        · exact absurd ⟨u, hu, hc⟩ hcov
      rw [getElem?_blit_of_not_covered fun u hu hc => hcov ⟨u, hu, hc⟩, getElem?_copyAt_of_covers hw hi,
        h w (mem_cons_self ..) hw]

end Jwm
