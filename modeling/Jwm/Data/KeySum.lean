/-
Sums over the entries of a finite map: what writing or removing a key does to them, and sums that saturate.
-/
import Jwm.Data.Bytes
import Jwm.Data.KeyMap
import Mathlib.Algebra.BigOperators.Group.List.Basic

namespace Jwm

open List

namespace KeyMap

variable {K V : Type}

/-- The sum of `f` over the entries. -/
def sumBy (m : KeyMap K V) (f : K → V → Nat) : Nat := (m.entries.map fun e => f e.1 e.2).sum

variable [DecidableEq K] {f : K → V → Nat}

variable {m : KeyMap K V} {k : K} {v : V}

theorem entries_split (h : m.get? k = some v) :
    ∃ a b, m.entries = a ++ (k, v) :: b ∧ (∀ e ∈ a, e.1 ≠ k) ∧ ∀ e ∈ b, e.1 ≠ k := by
  obtain ⟨a, b, hab⟩ := append_of_mem (get?_eq_some.1 h)
  have hnodup := m.nodup
  rw [hab, map_append, map_cons, nodup_append, nodup_cons] at hnodup
  obtain ⟨-, ⟨hb, -⟩, ha⟩ := hnodup
  refine ⟨a, b, hab, fun e he => ?_, fun e he heq => hb (mem_map.2 ⟨e, he, heq⟩)⟩
  exact ha e.1 (mem_map.2 ⟨e, he, rfl⟩) k mem_cons_self

theorem sumBy_remove (h : m.get? k = some v) : (m.remove k).sumBy f + f k v = m.sumBy f := by
  obtain ⟨a, b, hab, ha, hb⟩ := entries_split h
  have hkeep : ∀ l : List (K × V), (∀ e ∈ l, e.1 ≠ k) → l.filter (fun e => !(e.1 == k)) = l := fun l hl =>
    filter_eq_self.2 fun e he => by simp [hl e he]
  unfold sumBy remove
  dsimp only
  rw [hab, filter_append, filter_cons, hkeep a ha, hkeep b hb, beq_self_eq_true, Bool.not_true,
    if_neg Bool.false_ne_true]
  simp only [map_append, map_cons, sum_append, sum_cons]
  omega

theorem sumBy_insert_new (h : m.get? k = none) (v : V) : (m.insert k v).sumBy f = m.sumBy f + f k v := by
  unfold insert
  rw [dif_neg (get?_eq_none.1 h)]
  unfold sumBy
  rw [map_append, sum_append, map_cons, map_nil, sum_singleton]

theorem sumBy_insert_old (h : m.get? k = some v) (v' : V) : (m.insert k v').sumBy f + f k v = m.sumBy f + f k v' := by
  obtain ⟨a, b, hab, ha, hb⟩ := entries_split h
  have hkeep : ∀ l : List (K × V), (∀ e ∈ l, e.1 ≠ k) → l.map (fun e => if e.1 = k then (e.1, v') else e) = l := by
    intro l hl
    refine (map_congr_left fun e he => if_neg (hl e he)).trans (map_id' l)
  unfold insert
  rw [dif_pos (mem_keys.2 ⟨v, h⟩)]
  unfold sumBy modify
  dsimp only
  rw [hab, map_append, map_cons, hkeep a ha, hkeep b hb, if_pos rfl]
  simp only [map_append, map_cons, sum_append, sum_cons]
  omega

theorem sumBy_modify (h : m.get? k = some v) (v' : V) :
    (m.modify k fun _ => v').sumBy f + f k v = m.sumBy f + f k v' := by
  have hinsert := sumBy_insert_old (f := f) h v'
  unfold insert at hinsert
  rwa [dif_pos (mem_keys.2 ⟨v, h⟩)] at hinsert

theorem sumBy_insert (m : KeyMap K V) (k : K) (v' : V) :
    (m.insert k v').sumBy f + ((m.get? k).elim 0 (f k)) = m.sumBy f + f k v' := by
  cases h : m.get? k with
  | none => exact sumBy_insert_new h v'
  | some v => exact sumBy_insert_old h v'

theorem sumBy_modify_same (m : KeyMap K V) {g : V → V} (h : ∀ v, f k (g v) = f k v) :
    (m.modify k g).sumBy f = m.sumBy f := by
  unfold sumBy modify
  rw [map_map]
  congr 1
  refine map_congr_left fun e _ => ?_
  dsimp only [Function.comp]
  split
  · rename_i hk
    rw [hk, h]
  · rfl

theorem length_remove (h : m.get? k = some v) : (m.remove k).entries.length + 1 = m.entries.length := by
  have hones : ∀ l : List (K × V), (l.map fun _ => 1).sum = l.length := by
    intro l
    induction l with
    | nil => rfl
    | cons e l ih => rw [map_cons, sum_cons, ih, length_cons, Nat.add_comm]
  have hsum := sumBy_remove (f := fun _ _ => 1) h
  unfold sumBy at hsum
  rw [hones, hones] at hsum
  exact hsum

theorem length_insert_new (h : m.get? k = none) (v : V) : (m.insert k v).entries.length = m.entries.length + 1 := by
  unfold insert
  rw [dif_neg (get?_eq_none.1 h), length_append, length_singleton]

theorem length_insert_old (h : m.get? k = some v) (v' : V) : (m.insert k v').entries.length = m.entries.length := by
  unfold insert
  rw [dif_pos (mem_keys.2 ⟨v, h⟩)]
  exact length_map _

end KeyMap

/-! ## Saturating sums -/

/-- `u64::saturating_add`. -/
def saturatingAdd (a b : Nat) : Nat := min (a + b) u64Max

/-- `u64::checked_add`. -/
def checkedAdd (a b : Nat) : Option Nat := if a + b ≤ u64Max then some (a + b) else none

theorem foldl_saturatingAdd {α : Type} (f : α → Nat) (l : List α) {start : Nat} (h : start ≤ u64Max) :
    l.foldl (fun total x => saturatingAdd total (f x)) start = min (start + (l.map f).sum) u64Max := by
  induction l generalizing start with
  | nil => simp [h]
  | cons x l ih =>
    have hnext : saturatingAdd start (f x) ≤ u64Max := Nat.min_le_right _ _
    rw [foldl_cons, ih hnext, map_cons, sum_cons]
    unfold saturatingAdd
    omega

theorem sum_flatMap {α β : Type} (f : β → Nat) (g : α → List β) (l : List α) :
    ((l.flatMap g).map f).sum = (l.map fun x => ((g x).map f).sum).sum := by
  induction l with
  | nil => rfl
  | cons x l ih => rw [flatMap_cons, map_append, sum_append, ih, map_cons, sum_cons]

end Jwm
