/-
The lines of a stream that comes in pieces: those its separators end, and the tail after the last one.
-/
import Mathlib.Data.List.Basic

namespace Jwm

open List

variable {α : Type} {sep : α} [DecidableEq α]

def lines (sep : α) (xs : List α) : List (List α) := (xs.splitOn sep).dropLast

def tail (sep : α) (xs : List α) : List α := (xs.splitOn sep).getLastD []

theorem lines_of_notMem {xs : List α} (h : sep ∉ xs) : lines sep xs = [] := by
  rw [lines, splitOn_eq_singleton h]
  rfl

theorem tail_of_notMem {xs : List α} (h : sep ∉ xs) : tail sep xs = xs := by
  rw [tail, splitOn_eq_singleton h]
  rfl

theorem lines_cut (xs ys : List α) : lines sep (xs ++ sep :: ys) = lines sep xs ++ tail sep xs :: lines sep ys := by
  have hx := splitOn_ne_nil sep xs
  unfold lines tail
  rw [splitOn_append_cons_self, dropLast_append_of_ne_nil (splitOn_ne_nil sep ys), append_cons]
  congr 1
  rw [getLastD_eq_getLast?, getLast?_eq_some_getLast hx]
  exact (dropLast_concat_getLast hx).symm

theorem tail_cut (xs ys : List α) : tail sep (xs ++ sep :: ys) = tail sep ys := by
  have hy := splitOn_ne_nil sep ys
  unfold tail
  rw [splitOn_append_cons_self]
  simp [getLastD_eq_getLast?, getLast?_append, getLast?_eq_some_getLast hy]

theorem notMem_or_cut (sep : α) (xs : List α) : sep ∉ xs ∨ ∃ ys zs, xs = ys ++ sep :: zs ∧ sep ∉ zs := by
  by_cases h : sep ∈ xs
  · obtain ⟨as, bs, hxs, has⟩ := eq_append_cons_of_mem (mem_reverse.2 h)
    refine .inr ⟨bs.reverse, as.reverse, ?_, fun hmem => has (mem_reverse.1 hmem)⟩
    rw [← reverse_reverse xs, hxs]
    simp
  · exact .inl h

theorem lines_append (xs ys : List α) : lines sep (xs ++ ys) = lines sep xs ++ lines sep (tail sep xs ++ ys) := by
  rcases notMem_or_cut sep xs with h | ⟨as, bs, rfl, hbs⟩
  · rw [lines_of_notMem h, tail_of_notMem h, nil_append]
  · rw [tail_cut, tail_of_notMem hbs, lines_cut, lines_of_notMem hbs, append_assoc, cons_append, lines_cut,
      append_assoc]
    rfl

theorem tail_append (xs ys : List α) : tail sep (xs ++ ys) = tail sep (tail sep xs ++ ys) := by
  rcases notMem_or_cut sep xs with h | ⟨as, bs, rfl, hbs⟩
  · rw [tail_of_notMem h]
  · rw [tail_cut, tail_of_notMem hbs, append_assoc, cons_append, tail_cut]

end Jwm
