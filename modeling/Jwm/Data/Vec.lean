/-
Operations of growable vectors on lists: resizing, swapping two entries, rewriting one entry in
place.
-/
import Mathlib.Algebra.Ring.Nat
import Mathlib.Data.List.Perm.Basic

namespace Jwm

variable {α : Type}

/-- `Vec::resize`: cut to `len` entries, or pad with `v`. -/
def resize (l : List α) (len : Nat) (v : α) : List α := l.take len ++ List.replicate (len - l.length) v

/-- `slice::swap`. -/
def swapAt (l : List α) (i j : Nat) : List α :=
  match l[i]?, l[j]? with
  | some a, some b => (l.set i b).set j a
  | _, _ => l

@[simp] theorem length_resize (l : List α) (len : Nat) (v : α) : (resize l len v).length = len := by
  simp only [resize, List.length_append, List.length_take, List.length_replicate]
  omega

theorem resize_self (l : List α) (v : α) : resize l l.length v = l := by
  simp [resize]

theorem swapAt_perm (l : List α) (i j : Nat) : (swapAt l i j).Perm l := by
  unfold swapAt
  split
  · rename_i a b ha hb
    obtain ⟨hi, rfl⟩ := List.getElem?_eq_some_iff.1 ha
    obtain ⟨hj, rfl⟩ := List.getElem?_eq_some_iff.1 hb
    exact List.set_set_perm hi hj
  · exact .refl l

theorem exists_split {l : List α} {i : Nat} (h : i < l.length) : ∃ pre x post, l = pre ++ x :: post ∧ pre.length = i :=
  ⟨l.take i, l[i], l.drop (i + 1), by simp, by rw [List.length_take]; omega⟩

theorem modify_split (pre : List α) (x : α) (post : List α) (f : α → α) :
    (pre ++ x :: post).modify pre.length f = pre ++ f x :: post := by
  induction pre with
  | nil => rfl
  | cons y pre ih => simpa using ih

end Jwm
