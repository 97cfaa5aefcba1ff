/-
Debts paid off in rounds: each round takes as many of the open debts as its limit allows, whichever
they are. All are paid once the rounds could have taken them all, and none is paid twice.
-/
import Mathlib.Data.Finset.Card

namespace Jwm

variable {α : Type} [DecidableEq α]

/-- Rounds that pay `limit` of the open debts each, or all that are left. -/
inductive Repays (limit : Nat) : Finset α → List (Finset α) → Prop where
  | nil (debts : Finset α) : Repays limit debts []
  | cons {debts paid : Finset α} {rest : List (Finset α)} (sub : paid ⊆ debts) (card : paid.card = min limit debts.card)
    (next : Repays limit (debts \ paid) rest) : Repays limit debts (paid :: rest)

variable {limit n : Nat} {debts : Finset α} {rounds : List (Finset α)}

namespace Repays

theorem within (h : Repays limit debts rounds) (hn : debts.card ≤ n * limit) (hlen : n ≤ rounds.length) :
    ∀ a ∈ debts, ∃ paid ∈ rounds.take n, a ∈ paid := by
  induction h generalizing n with
  | nil debts =>
    intro a ha
    rw [List.length_nil] at hlen
    obtain rfl := Nat.le_zero.1 hlen
    rw [Nat.zero_mul, Nat.le_zero, Finset.card_eq_zero] at hn
    rw [hn] at ha
    cases ha
  | @cons debts paid rest sub card next ih =>
    intro a ha
    cases n with
    | zero =>
      rw [Nat.zero_mul, Nat.le_zero, Finset.card_eq_zero] at hn
      rw [hn] at ha
      cases ha
    | succ n =>
      rw [List.take_succ_cons]
      by_cases hpaid : a ∈ paid
      · exact ⟨paid, List.mem_cons_self .., hpaid⟩
      · have hleft : (debts \ paid).card ≤ n * limit := by
          rw [Finset.card_sdiff_of_subset sub, card]
          rw [Nat.succ_mul] at hn
          omega
        obtain ⟨other, hother, hmem⟩ := ih hleft (Nat.le_of_succ_le_succ hlen) a (Finset.mem_sdiff.2 ⟨ha, hpaid⟩)
        exact ⟨other, List.mem_cons_of_mem _ hother, hmem⟩

theorem subset (h : Repays limit debts rounds) : ∀ paid ∈ rounds, paid ⊆ debts := by
  induction h with
  | nil debts => exact fun paid hp => absurd hp List.not_mem_nil
  | cons sub _ _ ih =>
    intro other hother
    rcases List.mem_cons.1 hother with rfl | hother
    · exact sub
    · exact (ih other hother).trans Finset.sdiff_subset

end Repays

end Jwm
