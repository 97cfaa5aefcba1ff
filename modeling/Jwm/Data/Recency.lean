/-
What a history of writes leaves: the last value of every key, newest key first, of which a store of bounded size keeps the first ones.
Writing a key that is held, or one there is room for, moves it to the front; otherwise the key at the end is dropped.
-/
import Jwm.Data.KeyMap

namespace Jwm

open List

variable {K V : Type} [DecidableEq K]

/-- The last value of every key of a history, which is newest first. -/
def latest : List (K × V) → List (K × V)
  | [] => []
  | e :: history => e :: (latest history).filter fun other => other.1 ≠ e.1

/-- The `cap` keys written last. -/
def recent (cap : Nat) (history : List (K × V)) : List (K × V) := (latest history).take cap

section

variable {k : K} {e : K × V} {l history : List (K × V)}

theorem latest_sublist : ∀ history : List (K × V), (latest history).Sublist history
  | [] => List.Sublist.refl []
  | e :: history => (filter_sublist.trans (latest_sublist history)).cons_cons e

theorem latest_nodup : ∀ history : List (K × V), ((latest history).map Prod.fst).Nodup
  | [] => nodup_nil
  | e :: history => by
    rw [latest, map_cons, nodup_cons]
    constructor
    · intro hmem
      obtain ⟨other, hother, heq⟩ := mem_map.1 hmem
      exact of_decide_eq_true (mem_filter.1 hother).2 heq
    · exact (filter_sublist.map Prod.fst).nodup (latest_nodup history)

theorem mem_latest_keys : ∀ {history : List (K × V)}, k ∈ (latest history).map Prod.fst ↔ k ∈ history.map Prod.fst
  | [] => Iff.rfl
  | e :: history => by
    have ih := @mem_latest_keys history
    rw [latest, map_cons, map_cons, mem_cons, mem_cons, ← ih]
    constructor
    · rintro (rfl | hmem)
      · exact .inl rfl
      · exact .inr ((filter_sublist.map Prod.fst).subset hmem)
    · rintro (rfl | hmem)
      · exact .inl rfl
      · obtain ⟨other, hother, rfl⟩ := mem_map.1 hmem
        by_cases heq : other.1 = e.1
        · exact .inl heq
        · exact .inr (mem_map_of_mem (mem_filter.2 ⟨hother, decide_eq_true heq⟩))

theorem latest_append_singleton (e : K × V) : ∀ history : List (K × V),
    latest (history ++ [e]) = if e.1 ∈ history.map Prod.fst then latest history else latest history ++ [e]
  | [] => rfl
  | first :: history => by
    rw [cons_append, latest, latest_append_singleton e history, latest, map_cons]
    by_cases hmem : e.1 ∈ history.map Prod.fst
    · rw [if_pos hmem, if_pos (mem_cons_of_mem _ hmem)]
    · rw [if_neg hmem, filter_append]
      by_cases hfirst : e.1 = first.1
      · rw [if_pos (mem_cons.2 (.inl hfirst)), filter_cons, if_neg (by simp [hfirst]), filter_nil, append_nil]
      · rw [if_neg (by simp [hfirst, hmem]), filter_cons, if_pos (by simp [hfirst]), filter_nil, cons_append]

section

variable (cap : Nat) (history : List (K × V))

theorem recent_sublist : (recent cap history).Sublist history :=
  (take_sublist _ _).trans (latest_sublist history)

theorem recent_nodup : ((recent cap history).map Prod.fst).Nodup :=
  ((take_sublist _ _).map Prod.fst).nodup (latest_nodup history)

theorem length_recent_le : (recent cap history).length ≤ cap := length_take_le _ _

end

theorem filter_key_eq_self (h : k ∉ l.map Prod.fst) : (l.filter fun other => other.1 ≠ k) = l := by
  rw [filter_eq_self]
  intro other hother
  refine decide_eq_true fun heq => h ?_
  rw [← heq]
  exact mem_map_of_mem hother

theorem take_filter_key : ∀ (n : Nat) {l : List (K × V)}, (l.map Prod.fst).Nodup →
    (l.filter fun other => other.1 ≠ k).take n = ((l.take (n + 1)).filter fun other => other.1 ≠ k).take n
  | _, [], _ => by rw [take_nil]
  | 0, _ :: _, _ => by rw [take_zero, take_zero]
  | n + 1, e :: l, hnodup => by
    rw [map_cons, nodup_cons] at hnodup
    obtain ⟨hfresh, hnodup⟩ := hnodup
    rw [take_succ_cons]
    by_cases hk : e.1 = k
    · subst hk
      have htake : e.1 ∉ (l.take (n + 1)).map Prod.fst := fun hmem => hfresh (((take_sublist _ _).map Prod.fst).subset hmem)
      rw [filter_cons_of_neg (by simp), filter_cons_of_neg (by simp), filter_key_eq_self hfresh, filter_key_eq_self htake,
        take_take, Nat.min_self]
    · rw [filter_cons_of_pos (by simpa using hk), filter_cons_of_pos (by simpa using hk), take_succ_cons,
        take_succ_cons, take_filter_key n hnodup]

theorem recent_cons (cap : Nat) (e : K × V) (history : List (K × V)) :
    recent (cap + 1) (e :: history) = e :: ((recent (cap + 1) history).filter fun other => other.1 ≠ e.1).take cap := by
  unfold recent
  rw [latest, take_succ_cons, take_filter_key cap (latest_nodup history)]

theorem recent_cons_room (cap : Nat) (h : e.1 ∈ (recent (cap + 1) history).map Prod.fst ∨ (recent (cap + 1) history).length ≤ cap) :
    recent (cap + 1) (e :: history) = e :: (recent (cap + 1) history).filter fun other => other.1 ≠ e.1 := by
  rw [recent_cons, take_of_length_le]
  rcases h with hheld | hroom
  · obtain ⟨other, hother, heq⟩ := mem_map.1 hheld
    have hlt : ((recent (cap + 1) history).filter fun other => other.1 ≠ e.1).length < (recent (cap + 1) history).length :=
      length_filter_lt_length_iff_exists.2 ⟨other, hother, by simpa using heq⟩
    have := length_recent_le (cap + 1) history
    omega
  · exact Nat.le_trans (length_filter_le _ _) hroom

theorem recent_cons_full (cap : Nat) (hnew : e.1 ∉ (recent (cap + 1) history).map Prod.fst)
    (hfull : cap < (recent (cap + 1) history).length) :
    recent (cap + 1) (e :: history) = e :: (recent (cap + 1) history).dropLast := by
  have hlength : (recent (cap + 1) history).length = cap + 1 := Nat.le_antisymm (length_recent_le _ _) hfull
  rw [recent_cons, filter_key_eq_self hnew, dropLast_eq_take, hlength, Nat.add_sub_cancel]

theorem dropLast_eq_filter_key {last : K × V} (hnodup : (l.map Prod.fst).Nodup) (hlast : l.getLast? = some last) :
    l.dropLast = l.filter fun other => other.1 ≠ last.1 := by
  obtain ⟨front, rfl⟩ := getLast?_eq_some_iff.1 hlast
  rw [map_append, nodup_append] at hnodup
  have hfresh : last.1 ∉ front.map Prod.fst := fun hmem => hnodup.2.2 _ hmem _ (mem_map_of_mem (mem_singleton.2 rfl)) rfl
  rw [dropLast_concat, filter_append, filter_key_eq_self hfresh, filter_cons_of_neg (by simp), filter_nil, append_nil]

end

/-! ## As a map -/

/-- The last values of the `cap` keys written last. -/
def recentMap (cap : Nat) (history : List (K × V)) : KeyMap K V := ⟨recent cap history, recent_nodup cap history⟩

namespace KeyMap

variable {m m' : KeyMap K V}

theorem entries_perm (h : ∀ k, m.get? k = m'.get? k) : m.entries.Perm m'.entries := by
  rw [perm_ext_iff_of_nodup (List.Nodup.of_map _ m.nodup) (List.Nodup.of_map _ m'.nodup)]
  rintro ⟨k, v⟩
  rw [← get?_eq_some, ← get?_eq_some, h k]

theorem get?_of_entries_cons (m m' : KeyMap K V) (e : K × V) (h : m'.entries = e :: m.entries.filter fun other => other.1 ≠ e.1) (k : K) :
    m'.get? k = if k = e.1 then some e.2 else m.get? k := by
  refine Option.ext fun v => ?_
  rw [get?_eq_some, h, mem_cons, mem_filter]
  by_cases hk : k = e.1
  · subst hk
    simp [Prod.ext_iff, eq_comm]
  · rw [if_neg hk, get?_eq_some]
    simp [Prod.ext_iff, hk]

end KeyMap

end Jwm
