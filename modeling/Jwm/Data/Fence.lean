/-
Histories with fences. A fence forgets all that came before it, so that what a history leaves
depends only on the entries since its last fence; a queue may drop the earlier ones.
-/
import Mathlib.Data.List.Basic

namespace Jwm

open List

variable {α σ : Type} {p : α → Bool}

/-! ## Since the last fence -/

def sinceLast (p : α → Bool) : List α → List α
  | [] => []
  | a :: l => if l.any p then sinceLast p l else a :: l

theorem sinceLast_of_none : ∀ {l : List α}, l.any p = false → sinceLast p l = l
  | [], _ => rfl
  | a :: l, h => by
    rw [any_cons, Bool.or_eq_false_iff] at h
    rw [sinceLast, if_neg (by rw [h.2]; exact Bool.false_ne_true)]

theorem sinceLast_append {b : List α} : ∀ a : List α,
    sinceLast p (a ++ b) = if b.any p then sinceLast p b else sinceLast p a ++ b
  | [] => by
    rw [nil_append]
    split
    · rfl
    · rename_i h
      exact sinceLast_of_none (Bool.eq_false_iff.2 h)
  | x :: a => by
    rw [cons_append, sinceLast, sinceLast, any_append, sinceLast_append a]
    cases a.any p <;> cases b.any p <;> rfl

theorem sinceLast_cut : ∀ {l : List α}, l.any p = true →
    ∃ before e later, l = before ++ e :: later ∧ p e = true ∧ later.any p = false ∧ sinceLast p l = e :: later
  | x :: l, h => by
    cases hl : l.any p with
    | true =>
      obtain ⟨before, e, later, rfl, he, hlater, hs⟩ := sinceLast_cut hl
      refine ⟨x :: before, e, later, rfl, he, hlater, ?_⟩
      rw [sinceLast, if_pos hl, hs]
    | false =>
      rw [any_cons, hl, Bool.or_false] at h
      refine ⟨[], x, l, rfl, h, hl, ?_⟩
      rw [sinceLast, if_neg (by rw [hl]; exact Bool.false_ne_true)]

theorem sinceLast_suffix (l : List α) : ∃ before, l = before ++ sinceLast p l := by
  cases h : l.any p with
  | true =>
    obtain ⟨before, e, later, hl, -, -, hs⟩ := sinceLast_cut h
    exact ⟨before, by rw [hs, ← hl]⟩
  | false => exact ⟨[], (sinceLast_of_none h).symm⟩

theorem foldl_sinceLast {f : σ → α → σ} (hf : ∀ s s' e, p e = true → f s e = f s' e) {l : List α} (h : l.any p = true)
    (s s' : σ) : l.foldl f s = (sinceLast p l).foldl f s' := by
  obtain ⟨before, e, later, rfl, he, -, hs⟩ := sinceLast_cut h
  rw [hs, foldl_append, foldl_cons, foldl_cons, hf _ s' e he]

/-! ## Trimmed histories -/

/-- `kept` has in order the entries of `full` since its last fence, after some of the earlier ones. -/
def Trimmed (p : α → Bool) (full kept : List α) : Prop :=
  ∃ before sub, full = before ++ sinceLast p full ∧ kept = sub ++ sinceLast p full ∧ sub.Sublist before

namespace Trimmed

theorem nil : Trimmed p [] [] := ⟨[], [], rfl, rfl, List.Sublist.slnil⟩

variable {full kept : List α}

theorem sublist (h : Trimmed p full kept) : kept.Sublist full := by
  obtain ⟨before, sub, hf, hk, hs⟩ := h
  rw [hf, hk]
  exact hs.append (List.Sublist.refl _)

theorem append (h : Trimmed p full kept) {entries : List α} (hnone : entries.any p = false) :
    Trimmed p (full ++ entries) (kept ++ entries) := by
  obtain ⟨before, sub, hf, hk, hs⟩ := h
  have hsince : sinceLast p (full ++ entries) = sinceLast p full ++ entries := by
    rw [sinceLast_append, if_neg (by rw [hnone]; exact Bool.false_ne_true)]
  refine ⟨before, sub, ?_, ?_, hs⟩
  · rw [hsince, ← append_assoc, ← hf]
  · rw [hsince, ← append_assoc, ← hk]

theorem fence (h : Trimmed p full kept) {entries rest : List α} (hfence : entries.any p = true)
    (hrest : rest.Sublist kept) : Trimmed p (full ++ entries) (rest ++ sinceLast p entries) := by
  have hsince : sinceLast p (full ++ entries) = sinceLast p entries := by rw [sinceLast_append, if_pos hfence]
  obtain ⟨before, hb⟩ := sinceLast_suffix (p := p) entries
  refine ⟨full ++ before, rest, ?_, ?_, ?_⟩
  · rw [hsince, append_assoc, ← hb]
  · rw [hsince]
  · exact (hrest.trans h.sublist).trans (sublist_append_left full before)

theorem foldl_eq {f : σ → α → σ} (hf : ∀ s s' e, p e = true → f s e = f s' e) (h : Trimmed p full kept) (s : σ) :
    kept.foldl f s = full.foldl f s := by
  obtain ⟨before, sub, hfull, hk, hs⟩ := h
  cases hany : full.any p with
  | true =>
    have hcut := foldl_sinceLast hf hany s (sub.foldl f s)
    rw [hk, foldl_append, hcut]
  | false =>
    rw [sinceLast_of_none hany] at hfull hk
    obtain rfl : before = [] := append_left_eq_self.1 hfull.symm
    obtain rfl := sublist_nil.1 hs
    rw [hk, nil_append]

end Trimmed

end Jwm
