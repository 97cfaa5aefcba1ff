/-
A stable sort by a key. It is the one list in the order of the keys that lists the items of every key as they came; so it commutes
with filters, and sorting a part before the whole makes no difference.
-/
import Mathlib.Data.List.Perm.Basic
import Mathlib.Order.Lattice

namespace Jwm

open List

variable {α κ : Type} [LinearOrder κ]

/-- `sort_by_key`. -/
def sortByKey (key : α → κ) (l : List α) : List α := l.mergeSort fun a b => decide (key a ≤ key b)

section

variable {key : α → κ} {l l' l₁ l₂ : List α} {p : α → Bool} {a b : α}

theorem sortByKey_perm (key : α → κ) (l : List α) : (sortByKey key l).Perm l := mergeSort_perm l _

@[simp] theorem mem_sortByKey : a ∈ sortByKey key l ↔ a ∈ l := (sortByKey_perm key l).mem_iff

theorem le_key_trans (a b c : α) (hab : decide (key a ≤ key b) = true) (hbc : decide (key b ≤ key c) = true) :
    decide (key a ≤ key c) = true :=
  decide_eq_true (le_trans (of_decide_eq_true hab) (of_decide_eq_true hbc))

theorem le_key_total (a b : α) : (decide (key a ≤ key b) || decide (key b ≤ key a)) = true := by
  rw [Bool.or_eq_true, decide_eq_true_eq, decide_eq_true_eq]
  exact le_total _ _

theorem sortByKey_pairwise (key : α → κ) (l : List α) : (sortByKey key l).Pairwise (key · ≤ key ·) :=
  (pairwise_mergeSort le_key_trans le_key_total l).imp of_decide_eq_true

theorem filter_key_sortByKey (key : α → κ) (l : List α) (k : κ) :
    (sortByKey key l).filter (fun a => decide (key a = k)) = l.filter (fun a => decide (key a = k)) := by
  have hkey : ∀ a ∈ l.filter (fun a => decide (key a = k)), key a = k := fun a ha => of_decide_eq_true (mem_filter.1 ha).2
  have hsorted : (l.filter fun a => decide (key a = k)).Pairwise fun a b => decide (key a ≤ key b) = true :=
    pairwise_of_forall_mem_list fun a ha b hb => decide_eq_true (by rw [hkey a ha, hkey b hb])
  have hsub : (l.filter fun a => decide (key a = k)).Sublist (sortByKey key l) :=
    sublist_mergeSort le_key_trans le_key_total hsorted filter_sublist
  have hlist := hsub.filter fun a => decide (key a = k)
  rw [filter_filter] at hlist
  simp only [Bool.and_self] at hlist
  exact (hlist.eq_of_length ((sortByKey_perm key l).filter _).length_eq.symm).symm

theorem eq_of_sorted_of_filter : ∀ {l₁ l₂ : List α}, l₁.Pairwise (key · ≤ key ·) → l₂.Pairwise (key · ≤ key ·) →
    (∀ k, l₁.filter (fun a => decide (key a = k)) = l₂.filter fun a => decide (key a = k)) → l₁ = l₂
  | [], [], _, _, _ => rfl
  | [], b :: l₂, _, _, h => by
    have hb := h (key b)
    rw [filter_nil, filter_cons, if_pos (decide_eq_true rfl)] at hb
    cases hb
  | a :: l₁, [], _, _, h => by
    have ha := h (key a)
    rw [filter_nil, filter_cons, if_pos (decide_eq_true rfl)] at ha
    cases ha
  | a :: l₁, b :: l₂, h₁, h₂, h => by
    have hmem : ∀ c, c ∈ a :: l₁ ↔ c ∈ b :: l₂ := by
      intro c
      have hc : c ∈ (a :: l₁).filter (fun d => decide (key d = key c)) ↔ c ∈ (b :: l₂).filter fun d => decide (key d = key c) := by
        rw [h]
      simpa [mem_filter] using hc
    have hkeys : key a = key b := by
      refine le_antisymm ?_ ?_
      · rcases mem_cons.1 ((hmem b).2 (mem_cons_self ..)) with rfl | hb
        · exact le_rfl
        · exact (pairwise_cons.1 h₁).1 b hb
      · rcases mem_cons.1 ((hmem a).1 (mem_cons_self ..)) with rfl | ha
        · exact le_rfl
        · exact (pairwise_cons.1 h₂).1 a ha
    have hheads := h (key a)
    rw [filter_cons, filter_cons, if_pos (decide_eq_true rfl), if_pos (decide_eq_true hkeys.symm), cons.injEq] at hheads
    obtain ⟨rfl, -⟩ := hheads
    rw [eq_of_sorted_of_filter (pairwise_cons.1 h₁).2 (pairwise_cons.1 h₂).2 fun k => ?_]
    have hk := h k
    rw [filter_cons, filter_cons] at hk
    by_cases hak : key a = k
    · rw [if_pos (decide_eq_true hak), if_pos (decide_eq_true hak), cons.injEq] at hk
      exact hk.2
    · rwa [if_neg (by simpa using hak), if_neg (by simpa using hak)] at hk

theorem filter_comm (p q : α → Bool) (l : List α) : (l.filter p).filter q = (l.filter q).filter p := by
  rw [filter_filter, filter_filter]
  refine filter_congr fun a _ => Bool.and_comm _ _

theorem sortByKey_filter (key : α → κ) (l : List α) (p : α → Bool) : (sortByKey key l).filter p = sortByKey key (l.filter p) := by
  refine eq_of_sorted_of_filter ((sortByKey_pairwise key l).filter p) (sortByKey_pairwise key _) fun k => ?_
  rw [filter_comm, filter_key_sortByKey, filter_comm, filter_key_sortByKey]

theorem sortByKey_append (key : α → κ) (l l' : List α) : sortByKey key (sortByKey key l ++ l') = sortByKey key (l ++ l') := by
  refine eq_of_sorted_of_filter (sortByKey_pairwise key _) (sortByKey_pairwise key _) fun k => ?_
  rw [filter_key_sortByKey, filter_key_sortByKey, filter_append, filter_append, filter_key_sortByKey]

theorem find?_sortByKey_le (hfind : (sortByKey key l).find? p = some a) (hb : b ∈ l) (hp : p b = true) : key a ≤ key b := by
  have hhead : ((sortByKey key l).filter p).head? = some a := by rw [head?_filter, hfind]
  have hmem : b ∈ (sortByKey key l).filter p := mem_filter.2 ⟨mem_sortByKey.2 hb, hp⟩
  have hsorted := (sortByKey_pairwise key l).filter p
  rcases hlist : (sortByKey key l).filter p with _ | ⟨c, rest⟩
  · rw [hlist] at hhead
    cases hhead
  · rw [hlist] at hhead hmem hsorted
    obtain rfl : c = a := Option.some.inj hhead
    rcases mem_cons.1 hmem with rfl | hmem
    · exact le_rfl
    · exact (pairwise_cons.1 hsorted).1 b hmem

end

end Jwm
