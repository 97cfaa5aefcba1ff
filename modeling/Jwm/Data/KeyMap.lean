/-
A finite map with one entry per key, kept in iteration order: the reading of `slotmap::SlotMap`,
`slotmap::SecondaryMap` and `std::collections::HashMap` the rest of the development works with. A
key that is absent reads as `none`; writing keeps every other key's value.
-/
import Mathlib.Algebra.Ring.Nat
import Mathlib.Data.List.Nodup
import Mathlib.Data.List.Lookmap

namespace Jwm

open List Option

/-- Entries in iteration order, no key twice. -/
structure KeyMap (K V : Type) where
  entries : List (K × V)
  nodup : (entries.map Prod.fst).Nodup

namespace KeyMap

variable {K V : Type}

def empty : KeyMap K V := ⟨[], nodup_nil⟩

def keys (m : KeyMap K V) : List K := m.entries.map Prod.fst

/-- `values_mut`: rewrite each value. -/
def mapValues (m : KeyMap K V) (f : V → V) : KeyMap K V :=
  ⟨m.entries.map fun e => (e.1, f e.2), by
    rw [List.map_map]
    exact m.nodup⟩

/-- Keep the entries that meet `p`. -/
def retain (m : KeyMap K V) (p : K → V → Bool) : KeyMap K V :=
  ⟨m.entries.filter fun e => p e.1 e.2, (List.filter_sublist.map Prod.fst).nodup m.nodup⟩

variable [DecidableEq K]

def get? (m : KeyMap K V) (k : K) : Option V := (m.entries.find? (fun e => e.1 == k)).map Prod.snd

def contains (m : KeyMap K V) (k : K) : Bool := (m.get? k).isSome

/-- `get_mut`: rewrite the value under `k`, if there is one. -/
def modify (m : KeyMap K V) (k : K) (f : V → V) : KeyMap K V :=
  ⟨m.entries.map fun e => if e.1 = k then (e.1, f e.2) else e, by
    have h : (Prod.fst ∘ fun e : K × V => if e.1 = k then (e.1, f e.2) else e) = Prod.fst := by
      funext e; simp only [Function.comp]; split <;> rfl
    rw [List.map_map, h]; exact m.nodup⟩

def remove (m : KeyMap K V) (k : K) : KeyMap K V :=
  ⟨m.entries.filter fun e => !(e.1 == k), (filter_sublist.map Prod.fst).nodup m.nodup⟩

/-- Writing an absent key appends its entry; writing a present one keeps its place. -/
def insert (m : KeyMap K V) (k : K) (v : V) : KeyMap K V :=
  if h : k ∈ m.keys then m.modify k (fun _ => v)
  else ⟨m.entries ++ [(k, v)], by
    rw [map_append, nodup_append]
    refine ⟨m.nodup, nodup_singleton k, fun a ha b hb => ?_⟩
    rintro rfl
    simp only [map_cons, map_nil, mem_singleton] at hb
    exact h (hb ▸ ha)⟩

/-! ## Reading after writing -/

variable {m : KeyMap K V}

theorem get?_eq_some {k : K} {v : V} : m.get? k = some v ↔ (k, v) ∈ m.entries := by
  unfold get?
  constructor
  · intro h
    rcases hf : m.entries.find? (fun e => e.1 == k) with _ | ⟨k', v'⟩
    · rw [hf] at h; cases h
    · rw [hf] at h
      have hk : k' = k := by simpa using find?_some hf
      have hv : v' = v := by simpa using h
      exact hk ▸ hv ▸ mem_of_find?_eq_some hf
  · intro h
    rcases hf : m.entries.find? (fun e => e.1 == k) with _ | e
    · rw [find?_eq_none] at hf; simpa using hf _ h
    · have hk : e.1 = k := by simpa using find?_some hf
      have he : e = (k, v) := inj_on_of_nodup_map m.nodup (mem_of_find?_eq_some hf) h hk
      rw [hf, he]; rfl

theorem get?_eq_none {k : K} : m.get? k = none ↔ k ∉ m.keys := by
  unfold get? keys
  rw [map_eq_none_iff, find?_eq_none, List.mem_map]
  constructor
  · rintro h ⟨e, he, rfl⟩; simpa using h e he
  · intro h e he; simpa using fun hk => h ⟨e, he, hk⟩

theorem mem_keys {k : K} : k ∈ m.keys ↔ ∃ v, m.get? k = some v := by
  rw [← not_iff_not, ← get?_eq_none, eq_none_iff_forall_ne_some]
  exact not_exists.symm

@[simp] theorem get?_empty (k : K) : (empty : KeyMap K V).get? k = none := rfl

@[simp] theorem keys_modify (m : KeyMap K V) (k : K) (f : V → V) : (m.modify k f).keys = m.keys := by
  unfold keys modify
  rw [List.map_map]
  congr 1
  funext e; simp only [Function.comp]; split <;> rfl

theorem modify_congr {k : K} {v : V} {f g : V → V} (hv : m.get? k = some v) (h : f v = g v) : m.modify k f = m.modify k g := by
  have hentry : ∀ e ∈ m.entries, (if e.1 = k then (e.1, f e.2) else e) = if e.1 = k then (e.1, g e.2) else e := by
    rintro ⟨k', v'⟩ he
    split
    · rename_i hk
      obtain rfl : k' = k := hk
      obtain rfl : v' = v := Option.some.inj ((get?_eq_some.2 he).symm.trans hv)
      rw [h]
    · rfl
  unfold modify
  simp only [map_congr_left hentry]

theorem get?_modify (m : KeyMap K V) (k k' : K) (f : V → V) :
    (m.modify k f).get? k' = if k' = k then (m.get? k').map f else m.get? k' := by
  unfold get? modify
  simp only [find?_map, Function.comp_def]
  have h : (fun e : K × V => (if e.1 = k then (e.1, f e.2) else e).1 == k') = fun e => e.1 == k' := by
    funext e; split <;> rfl
  rw [h]
  rcases hf : m.entries.find? (fun e => e.1 == k') with _ | ⟨a, v⟩
  · rw [hf]; simp
  · have ha : a = k' := by simpa using find?_some hf
    subst ha
    rw [hf]
    by_cases hk : a = k <;> simp [hk]

theorem get?_remove (m : KeyMap K V) (k k' : K) : (m.remove k).get? k' = if k' = k then none else m.get? k' := by
  by_cases hk : k' = k
  · subst hk
    rw [if_pos rfl, get?_eq_none, keys, remove, List.mem_map]
    rintro ⟨e, he, rfl⟩
    simpa using (mem_filter.1 he).2
  · rw [if_neg hk]
    refine ext fun v => ?_
    rw [get?_eq_some, get?_eq_some, remove, mem_filter]
    simp [hk]

theorem get?_insert (m : KeyMap K V) (k k' : K) (v : V) :
    (m.insert k v).get? k' = if k' = k then some v else m.get? k' := by
  unfold insert
  split
  · rename_i h
    obtain ⟨w, hw⟩ := mem_keys.1 h
    rw [get?_modify]
    split
    · rename_i hk; rw [hk, hw]; rfl
    · rfl
  · rename_i h
    rw [← get?_eq_none] at h
    unfold get? at h ⊢
    rw [find?_append]
    by_cases hk : k' = k
    · subst hk
      rw [map_eq_none_iff] at h
      simp [h]
    · have hk' : ¬ k = k' := fun e => hk e.symm
      simp [hk, hk']

theorem mem_keys_insert {k k' : K} {v : V} : k' ∈ (m.insert k v).keys ↔ k' = k ∨ k' ∈ m.keys := by
  rw [mem_keys, mem_keys]
  simp only [get?_insert]
  by_cases hk : k' = k
  · simp [hk]
  · simp [hk]

/-! ## Moving entries -/

def extend (m : KeyMap K V) (entries : List (K × V)) : KeyMap K V := entries.foldl (fun m e => m.insert e.1 e.2) m

/-- Take the entries under `keys` out one after another. -/
def drain (m : KeyMap K V) : List K → List (K × V) × KeyMap K V
  | [] => ([], m)
  | k :: keys =>
    match m.get? k with
    | none => drain m keys
    | some v =>
      let rest := drain (m.remove k) keys
      ((k, v) :: rest.1, rest.2)

theorem get?_extend : ∀ (entries : List (K × V)) (m : KeyMap K V), (entries.map Prod.fst).Nodup → ∀ k v,
    (m.extend entries).get? k = some v ↔ (k, v) ∈ entries ∨ (k ∉ entries.map Prod.fst ∧ m.get? k = some v)
  | [], m, _, k, v => by simp [extend]
  | (k0, v0) :: entries, m, hn, k, v => by
    rw [map_cons, nodup_cons] at hn
    have ih := get?_extend entries (m.insert k0 v0) hn.2 k v
    rw [get?_insert] at ih
    show ((m.insert k0 v0).extend entries).get? k = some v ↔ _
    rw [ih, map_cons, mem_cons, mem_cons]
    by_cases hk : k = k0
    · subst hk
      have hnot : ∀ w, (k, w) ∉ entries := fun w hw => hn.1 (mem_map.2 ⟨_, hw, rfl⟩)
      simp [hn.1, hnot v, eq_comm]
    · simp [hk]

theorem drain_map_sublist : ∀ (keys : List K) (m : KeyMap K V), ((m.drain keys).1.map Prod.fst).Sublist keys
  | [], _ => List.Sublist.refl []
  | k :: keys, m => by
    unfold drain
    cases m.get? k with
    | none => exact (drain_map_sublist keys m).cons k
    | some v => exact (drain_map_sublist keys (m.remove k)).cons_cons k

theorem get?_drain : ∀ (keys : List K) (m : KeyMap K V) (k : K),
    (m.drain keys).2.get? k = if k ∈ keys then none else m.get? k
  | [], _, _ => by simp [drain]
  | k0 :: keys, m, k => by
    unfold drain
    cases h0 : m.get? k0 with
    | none =>
      simp only
      rw [get?_drain keys m k]
      by_cases hk : k = k0
      · simp [hk, h0]
      · simp [hk]
    | some v =>
      simp only
      rw [get?_drain keys (m.remove k0) k, get?_remove]
      by_cases hk : k = k0
      · simp [hk]
      · simp [hk]

theorem mem_drain : ∀ (keys : List K) (m : KeyMap K V), keys.Nodup → ∀ k v,
    (k, v) ∈ (m.drain keys).1 ↔ k ∈ keys ∧ m.get? k = some v
  | [], _, _, _, _ => by simp [drain]
  | k0 :: keys, m, hn, k, v => by
    rw [nodup_cons] at hn
    unfold drain
    cases h0 : m.get? k0 with
    | none =>
      simp only
      rw [mem_drain keys m hn.2 k v, mem_cons]
      constructor
      · rintro ⟨hk, hv⟩; exact ⟨.inr hk, hv⟩
      · rintro ⟨rfl | hk, hv⟩
        · rw [h0] at hv; cases hv
        · exact ⟨hk, hv⟩
    | some v0 =>
      simp only
      rw [mem_cons, mem_drain keys (m.remove k0) hn.2 k v, get?_remove, mem_cons]
      constructor
      · rintro (h | ⟨hk, hv⟩)
        · cases h; exact ⟨.inl rfl, h0⟩
        · have hne : k ≠ k0 := fun e => hn.1 (e ▸ hk)
          rw [if_neg hne] at hv
          exact ⟨.inr hk, hv⟩
      · rintro ⟨rfl | hk, hv⟩
        · rw [h0] at hv; cases hv; exact .inl rfl
        · have hne : k ≠ k0 := fun e => hn.1 (e ▸ hk)
          exact .inr ⟨hk, by rw [if_neg hne]; exact hv⟩

theorem get?_mapValues (m : KeyMap K V) (f : V → V) (k : K) : (m.mapValues f).get? k = (m.get? k).map f := by
  refine Option.ext fun v => ?_
  rw [get?_eq_some, Option.map_eq_some_iff]
  unfold mapValues
  rw [List.mem_map]
  constructor
  · rintro ⟨e, he, heq⟩
    cases heq
    exact ⟨e.2, get?_eq_some.2 he, rfl⟩
  · rintro ⟨w, hw, rfl⟩
    exact ⟨(k, w), get?_eq_some.1 hw, rfl⟩

theorem get?_retain (m : KeyMap K V) (p : K → V → Bool) (k : K) : (m.retain p).get? k = (m.get? k).filter (p k) := by
  refine Option.ext fun v => ?_
  rw [get?_eq_some, Option.filter_eq_some_iff, get?_eq_some]
  exact List.mem_filter

end KeyMap

end Jwm
