/-
Sweeping a changing set: each round goes on where the last one stopped, upwards and round again, and stops where it likes.
Whoever is there all the time is visited before anyone is visited twice.
-/
import Mathlib.Data.List.Infix
import Mathlib.Order.Lattice

namespace Jwm

open List

variable {α : Type} [LinearOrder α]

/-- Going up from `start` and round again, `a` is met before `b`. -/
def MetFirst (start a b : α) : Prop := start ≤ a ∧ b < start ∨ a < b ∧ (start ≤ a ∨ b < start)

namespace MetFirst

variable {start next a b : α}

theorem asymm (h : MetFirst start a b) : ¬ MetFirst start b a := by
  unfold MetFirst at *
  grind

/-- The sweep goes on to `next`, at most as far as `a`: it still meets `a` first. -/
theorem advance (h : MetFirst start a b) (hnext : next = a ∨ MetFirst start next a) : MetFirst next a b := by
  unfold MetFirst at *
  grind

/-- Past both, `a` comes first again. -/
theorem passed (h : MetFirst start a b) (hnext : MetFirst start b next) : MetFirst next a b := by
  unfold MetFirst at *
  grind

/-- Past `b` only, `a` comes first. -/
theorem overtaken (hb : MetFirst start b next) (hnext : next = a ∨ MetFirst start next a) : MetFirst next a b := by
  unfold MetFirst at *
  grind

end MetFirst

/-- In a list that goes up, what the sweep meets late comes before what it meets early. -/
theorem le_of_mem_dropWhile {start : α} : ∀ {l : List α}, l.Pairwise (· < ·) → ∀ a ∈ l.dropWhile (· < start), start ≤ a
  | [], _, _, ha => absurd ha not_mem_nil
  | x :: l, hl, a, ha => by
    obtain ⟨hx, hl⟩ := pairwise_cons.1 hl
    rw [dropWhile_cons] at ha
    split at ha
    · exact le_of_mem_dropWhile hl a ha
    · rename_i hle
      have hstart : start ≤ x := le_of_not_gt fun hlt => hle (decide_eq_true hlt)
      rcases mem_cons.1 ha with rfl | ha
      · exact hstart
      · exact hstart.trans (hx a ha).le

/-- Cut at the start and put together the other way round, it is in the order of the sweep. -/
theorem pairwise_metFirst {l : List α} (hl : l.Pairwise (· < ·)) (start : α) :
    (l.dropWhile (· < start) ++ l.takeWhile (· < start)).Pairwise (MetFirst start) := by
  have hlate : ∀ a ∈ l.takeWhile (· < start), a < start := fun a ha => by
    simpa using all_eq_true.1 all_takeWhile a ha
  refine pairwise_append.2 ⟨?_, ?_, fun a ha b hb => .inl ⟨le_of_mem_dropWhile hl a ha, hlate b hb⟩⟩
  · exact (hl.sublist (dropWhile_sublist _)).imp_of_mem fun ha _ hlt => .inr ⟨hlt, .inl (le_of_mem_dropWhile hl _ ha)⟩
  · exact (hl.sublist (takeWhile_sublist _)).imp_of_mem fun _ hb hlt => .inr ⟨hlt, .inr (hlate _ hb)⟩

/-- A round: the members as the sweep meets them, those it came to, and where it stopped. -/
structure SweepRound (α : Type) where
  start : α
  members : List α
  visited : List α
  stop : α

namespace SweepRound

/-- The round visits the first members and stops at the one after them. -/
structure Legal (r : SweepRound α) : Prop where
  order : r.members.Pairwise (MetFirst r.start)
  isPrefix : r.visited <+: r.members
  stop : r.visited = [] ∧ r.stop = r.start ∨
    r.visited ≠ [] ∧ r.members[r.visited.length % r.members.length]? = some r.stop

variable {r : SweepRound α} {a b : α}

namespace Legal

/-- A round that visits someone stops at the next member, or at the first one when it is through. -/
theorem stop_cases (h : r.Legal) (hne : r.visited ≠ []) :
    (∃ rest, r.members = r.visited ++ r.stop :: rest) ∨ r.visited = r.members ∧ ∃ rest, r.members = r.stop :: rest := by
  obtain ⟨rest, hrest⟩ := h.isPrefix
  obtain ⟨hnil, -⟩ | ⟨-, hstop⟩ := h.stop
  · exact absurd hnil hne
  cases rest with
  | nil =>
    rw [append_nil] at hrest
    rw [hrest, Nat.mod_self] at hstop
    refine .inr ⟨hrest, ?_⟩
    cases hmembers : r.members with
    | nil =>
      rw [hmembers] at hstop
      cases hstop
    | cons first rest =>
      rw [hmembers] at hstop
      obtain rfl : first = r.stop := Option.some.inj hstop
      exact ⟨rest, rfl⟩
  | cons first rest =>
    have hlt : r.visited.length < r.members.length := by
      rw [← hrest, length_append, length_cons]
      omega
    rw [Nat.mod_eq_of_lt hlt, ← hrest, getElem?_append_right (Nat.le_refl _), Nat.sub_self] at hstop
    obtain rfl : first = r.stop := Option.some.inj hstop
    exact .inl ⟨rest, hrest.symm⟩

theorem stop_le_of_unvisited (h : r.Legal) (hb : b ∈ r.members) (hv : b ∉ r.visited) (hne : r.visited ≠ []) :
    r.stop = b ∨ MetFirst r.start r.stop b := by
  rcases h.stop_cases hne with ⟨rest, hrest⟩ | ⟨hall, -⟩
  · have hsorted := h.order
    rw [hrest] at hb hsorted
    rcases mem_cons.1 ((mem_append.1 hb).resolve_left hv) with rfl | hbrest
    · exact .inl rfl
    · exact .inr (rel_of_pairwise_cons (pairwise_append.1 hsorted).2.1 hbrest)
  · rw [← hall] at hb
    exact absurd hb hv

theorem owed (h : r.Legal) (hb : b ∈ r.members) (hfirst : MetFirst r.start b a) (hv : b ∉ r.visited) :
    a ∉ r.visited ∧ MetFirst r.stop b a := by
  refine ⟨fun ha => ?_, ?_⟩
  · obtain ⟨rest, hrest⟩ := h.isPrefix
    have hsorted := h.order
    rw [← hrest] at hb hsorted
    exact hfirst.asymm ((pairwise_append.1 hsorted).2.2 a ha b ((mem_append.1 hb).resolve_left hv))
  · by_cases hne : r.visited = []
    · obtain ⟨-, hstop⟩ := h.stop.resolve_right fun hstop => hstop.1 hne
      rwa [hstop]
    · exact hfirst.advance (h.stop_le_of_unvisited hb hv hne)

theorem owes (h : r.Legal) {u w : List α} (hvisit : r.visited = u ++ a :: w) (hb : b ∈ r.members) (hne : b ≠ a) (hw : b ∉ w) :
    MetFirst r.stop b a := by
  have hvisited : r.visited ≠ [] := by
    rw [hvisit]
    exact append_ne_nil_of_right_ne_nil u (cons_ne_nil a w)
  have ha : a ∈ r.visited := by
    rw [hvisit]
    exact mem_append_right u mem_cons_self
  have hsorted := h.order
  by_cases hv : b ∈ r.visited
  · have hu : b ∈ u := by
      rw [hvisit, mem_append, mem_cons] at hv
      exact hv.resolve_right fun hv => hv.elim hne hw
    have hfirst : MetFirst r.start b a := by
      obtain ⟨rest, hrest⟩ := h.isPrefix
      rw [← hrest, hvisit, append_assoc] at hsorted
      exact (pairwise_append.1 hsorted).2.2 b hu a mem_cons_self
    rcases h.stop_cases hvisited with ⟨rest, hrest⟩ | ⟨-, rest, hrest⟩
    · rw [hrest] at hsorted
      exact hfirst.passed ((pairwise_append.1 hsorted).2.2 a ha r.stop mem_cons_self)
    · refine hfirst.advance ?_
      rw [hrest] at hb hsorted
      rcases mem_cons.1 hb with rfl | hbrest
      · exact .inl rfl
      · exact .inr (rel_of_pairwise_cons hsorted hbrest)
  · rcases h.stop_cases hvisited with ⟨rest, hrest⟩ | ⟨hall, -⟩
    · rw [hrest] at hsorted
      exact MetFirst.overtaken ((pairwise_append.1 hsorted).2.2 a ha r.stop mem_cons_self)
        (h.stop_le_of_unvisited hb hv hvisited)
    · rw [hall] at hv
      exact absurd hb hv

end Legal

end SweepRound

/-! ## Runs -/

/-- Rounds that each go on where the last one stopped. -/
inductive Sweep : α → List (SweepRound α) → α → Prop where
  | nil (start : α) : Sweep start [] start
  | cons {r : SweepRound α} {rest : List (SweepRound α)} {stop : α} (legal : r.Legal) (next : Sweep r.stop rest stop) :
    Sweep r.start (r :: rest) stop

namespace Sweep

variable {start stop a b : α} {rounds : List (SweepRound α)}

/-- Who comes first and is there in every round is visited, or comes first still. -/
theorem owed (h : Sweep start rounds stop) (hfirst : MetFirst start b a) (hb : ∀ r ∈ rounds, b ∈ r.members)
    (hv : b ∉ rounds.flatMap SweepRound.visited) : MetFirst stop b a := by
  induction h with
  | nil => exact hfirst
  | cons legal _ ih =>
    rw [flatMap_cons, mem_append, not_or] at hv
    have hnext := (legal.owed (hb _ mem_cons_self) hfirst hv.1).2
    exact ih hnext (fun r hr => hb r (mem_cons_of_mem _ hr)) hv.2

/-- Between two visits of one member everyone who was there all the time is visited. -/
theorem fair {first last : SweepRound α} {u w u' w' : List α} (h : Sweep first.stop rounds last.start) (hfirst : first.Legal)
    (hlast : last.Legal) (hvisit : first.visited = u ++ a :: w) (hagain : last.visited = u' ++ a :: w') (hne : b ≠ a)
    (hb : b ∈ first.members) (hrounds : ∀ r ∈ rounds, b ∈ r.members) (hb' : b ∈ last.members) :
    b ∈ w ++ (rounds.flatMap SweepRound.visited ++ u') := by
  by_contra hnot
  rw [mem_append, mem_append, not_or, not_or] at hnot
  obtain ⟨hw, hmid, hu'⟩ := hnot
  have howed := h.owed (hfirst.owes hvisit hb hne hw) hrounds hmid
  have hv : b ∈ last.visited := by
    by_contra hv
    refine (hlast.owed hb' howed hv).1 ?_
    rw [hagain]
    exact mem_append_right u' mem_cons_self
  have hsorted : last.visited.Pairwise (MetFirst last.start) := hlast.order.sublist hlast.isPrefix.sublist
  rw [hagain, mem_append, mem_cons] at hv
  rw [hagain] at hsorted
  refine howed.asymm (rel_of_pairwise_cons (pairwise_append.1 hsorted).2.1 ?_)
  exact (hv.resolve_left hu').resolve_left hne

end Sweep

end Jwm
