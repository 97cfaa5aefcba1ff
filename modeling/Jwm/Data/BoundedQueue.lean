/-
Bounded queues that fail closed: a record that does not fit closes the queue and drops what it held.
A record may replace older ones that it supersedes.
-/
import Mathlib.Algebra.Ring.Nat
import Mathlib.Data.List.Nodup

namespace Jwm

open List

/-- A queue of records with their sizes. The byte count is that of its entries, and a closed queue is
empty. -/
structure BoundedQueue (α : Type) where
  entries : List (α × Nat)
  bytes : Nat
  closed : Bool
  maxRecords : Nat
  maxBytes : Nat
  bytes_eq : bytes = (entries.map Prod.snd).sum
  closed_nil : closed = true → entries = []

namespace BoundedQueue

variable {α : Type}

def new (maxRecords maxBytes : Nat) : BoundedQueue α := ⟨[], 0, false, maxRecords, maxBytes, rfl, fun _ => rfl⟩

def close (q : BoundedQueue α) : BoundedQueue α := ⟨[], 0, true, q.maxRecords, q.maxBytes, rfl, fun _ => rfl⟩

theorem sum_filter_add (entries : List (α × Nat)) (p : α → Bool) :
    ((entries.filter fun e => !p e.1).map Prod.snd).sum + ((entries.filter fun e => p e.1).map Prod.snd).sum =
      (entries.map Prod.snd).sum := by
  induction entries with
  | nil => rfl
  | cons e entries ih => cases h : p e.1 <;> simp [h] <;> omega

/-- Drop what the record replaces, then append it, or close when it does not fit. -/
def push (q : BoundedQueue α) (value : α) (size : Nat) (replace : α → Bool) : BoundedQueue α × Bool :=
  if hc : q.closed then (q, false)
  else
    let kept := q.entries.filter fun e => !replace e.1
    let removed := ((q.entries.filter fun e => replace e.1).map Prod.snd).sum
    if kept.length ≥ q.maxRecords ∨ size > q.maxBytes - (q.bytes - removed) then (q.close, false)
    else
      (⟨kept ++ [(value, size)], q.bytes - removed + size, false, q.maxRecords, q.maxBytes, by
          have := sum_filter_add q.entries replace
          simp only [q.bytes_eq, map_append, sum_append, map_cons, map_nil, sum_cons, sum_nil, kept, removed]
          omega, fun h => by cases h⟩, true)

def pop (q : BoundedQueue α) : Option (α × BoundedQueue α) :=
  match h : q.entries with
  | [] => none
  | (value, size) :: rest =>
    some (value, ⟨rest, q.bytes - size, q.closed, q.maxRecords, q.maxBytes, by
      rw [q.bytes_eq, h, map_cons, sum_cons, Nat.add_sub_cancel_left], fun hc => by
      rw [q.closed_nil hc] at h
      cases h⟩)

def records (q : BoundedQueue α) : List α := q.entries.map Prod.fst

theorem records_of_closed {q : BoundedQueue α} (h : q.closed = true) : q.records = [] := by
  rw [records, q.closed_nil h, map_nil]

/-- What a push leaves: the record behind those it did not replace, or a closed queue. -/
theorem push_cases (q : BoundedQueue α) (value : α) (size : Nat) (replace : α → Bool) :
    ((q.push value size replace).2 = true ∧ (q.push value size replace).1.closed = false ∧ q.closed = false ∧
      (q.push value size replace).1.records = (q.records.filter fun r => !replace r) ++ [value]) ∨
    ((q.push value size replace).2 = false ∧ (q.push value size replace).1.closed = true) := by
  unfold push
  split
  · rename_i hc
    exact .inr ⟨rfl, hc⟩
  · rename_i hc
    dsimp only
    split
    · exact .inr ⟨rfl, rfl⟩
    · refine .inl ⟨rfl, rfl, by simpa using hc, ?_⟩
      simp only [records, map_append, map_cons, map_nil, filter_map]
      rfl

theorem pop_eq_some {q q' : BoundedQueue α} {value : α} (h : q.pop = some (value, q')) :
    q.records = value :: q'.records ∧ q'.closed = q.closed ∧ q.closed = false := by
  unfold pop at h
  split at h
  · cases h
  · rename_i v size rest he
    obtain ⟨rfl, rfl⟩ := Prod.mk.inj (Option.some.inj h)
    refine ⟨?_, rfl, ?_⟩
    · simp only [records, he, map_cons]
    · cases hc : q.closed with
      | false => rfl
      | true =>
        rw [q.closed_nil hc] at he
        cases he

/-! ## Open queues -/

def holding (maxRecords maxBytes : Nat) (entries : List (α × Nat)) : BoundedQueue α :=
  ⟨entries, (entries.map Prod.snd).sum, false, maxRecords, maxBytes, rfl, nofun⟩

@[simp] theorem closed_holding (maxRecords maxBytes : Nat) (entries : List (α × Nat)) :
    (holding maxRecords maxBytes entries).closed = false := rfl

theorem push_holding {maxRecords maxBytes size : Nat} {entries kept : List (α × Nat)} (value : α) {replace : α → Bool}
    (hkept : entries.filter (fun e => !replace e.1) = kept) (hrecords : kept.length < maxRecords)
    (hbytes : (kept.map Prod.snd).sum + size ≤ maxBytes) :
    (holding maxRecords maxBytes entries).push value size replace =
      (holding maxRecords maxBytes (kept ++ [(value, size)]), true) := by
  have hsum := sum_filter_add entries replace
  rw [hkept] at hsum
  have hleft : (holding maxRecords maxBytes entries).bytes - ((entries.filter fun e => replace e.1).map Prod.snd).sum =
      (kept.map Prod.snd).sum := by
    show (entries.map Prod.snd).sum - _ = _
    omega
  unfold push
  rw [dif_neg (by simp)]
  rw [if_neg]
  · subst hkept
    refine Prod.ext ?_ rfl
    simp only [holding, mk.injEq, true_and, and_true, map_append, sum_append, map_cons, map_nil, sum_cons, sum_nil]
    exact congrArg (· + size) hleft
  · rw [show (holding maxRecords maxBytes entries).entries = entries from rfl, hkept, hleft]
    simp only [holding]
    omega

@[simp] theorem pop_holding (maxRecords maxBytes : Nat) (value : α) (size : Nat) (entries : List (α × Nat)) :
    (holding maxRecords maxBytes ((value, size) :: entries)).pop = some (value, holding maxRecords maxBytes entries) := by
  simp [pop, holding]

end BoundedQueue

end Jwm
