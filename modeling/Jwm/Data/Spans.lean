/-
Spans on a line, one after another with the same gap between them: they lie within their ends and apart from one
another.
-/
import Mathlib.Data.List.Basic

namespace Jwm

open List

structure Span where
  start : Int
  len : Int
deriving DecidableEq

namespace Span

def stop (s : Span) : Int := s.start + s.len

/-- Spans of at least one from `lo` to `hi`, each `gap` after the one before it. -/
inductive Spaced (gap : Int) : Int → Int → List Span → Prop
  | last {lo len : Int} (hlen : 1 ≤ len) : Spaced gap lo (lo + len) [⟨lo, len⟩]
  | cons {lo hi len : Int} {rest : List Span} (hlen : 1 ≤ len) (hrest : Spaced gap (lo + len + gap) hi rest) :
      Spaced gap lo hi (⟨lo, len⟩ :: rest)

variable {gap lo hi : Int} {spans : List Span}

section

variable (h : Spaced gap lo hi spans)
include h

theorem Spaced.ne_nil : spans ≠ [] := by
  cases h with
  | last hlen | cons hlen hrest => exact cons_ne_nil _ _

theorem Spaced.lt (hgap : 0 ≤ gap) : lo < hi := by
  induction h with
  | last hlen | cons hlen hrest ih => omega

theorem Spaced.within (hgap : 0 ≤ gap) : ∀ s ∈ spans, lo ≤ s.start ∧ 1 ≤ s.len ∧ s.stop ≤ hi := by
  induction h with
  | last hlen =>
    intro s hs
    cases mem_singleton.1 hs
    exact ⟨Int.le_refl _, hlen, Int.le_refl _⟩
  | @cons lo hi len rest hlen hrest ih =>
    intro s hs
    rcases mem_cons.1 hs with rfl | hs
    · have hlt := hrest.lt hgap
      refine ⟨Int.le_refl _, hlen, ?_⟩
      change lo + len ≤ hi
      omega
    · obtain ⟨hstart, hpos, hstop⟩ := ih s hs
      exact ⟨by omega, hpos, hstop⟩

theorem Spaced.ordered (hgap : 0 ≤ gap) : spans.Pairwise fun a b => a.stop ≤ b.start := by
  induction h with
  | last hlen => exact pairwise_singleton _ _
  | @cons lo hi len rest hlen hrest ih =>
    refine pairwise_cons.2 ⟨fun b hb => ?_, ih⟩
    obtain ⟨hstart, -, -⟩ := hrest.within hgap b hb
    change lo + len ≤ b.start
    omega

/-- The first starts at `lo`. -/
theorem Spaced.head : spans.head?.map start = some lo := by
  cases h with
  | last hlen | cons hlen hrest => rfl

/-- The last ends at `hi`. -/
theorem Spaced.getLast : spans.getLast?.map stop = some hi := by
  induction h with
  | last hlen => rfl
  | cons hlen hrest ih =>
    obtain ⟨s, rest, rfl⟩ := exists_cons_of_ne_nil hrest.ne_nil
    rw [getLast?_cons_cons]
    exact ih

/-- Neighbours are `gap` apart. -/
theorem Spaced.next : ∀ i a b, spans[i]? = some a → spans[i + 1]? = some b → b.start = a.stop + gap := by
  induction h with
  | last hlen =>
    intro i a b _ hb
    cases hb
  | @cons lo hi len rest hlen hrest ih =>
    intro i a b ha hb
    cases i with
    | zero =>
      cases ha
      have hhead := hrest.head
      rw [getElem?_cons_succ, ← head?_eq_getElem?] at hb
      rw [hb] at hhead
      exact Option.some.inj hhead
    | succ i => exact ih i a b ha hb

end

end Span

end Jwm
