/-
Greedy matching by key: each taker claims the first item of its own key that is still free. With as
many items as takers of every key, the k-th taker of a key gets the k-th item of that key.
-/
import Mathlib.Data.List.Perm.Basic

namespace Jwm

open List Option

variable {α β κ : Type}

/-! ## Slots -/

/-- The first slot that is free and meets `p`, with the slots after it is claimed. -/
def claimFirst (p : α → Bool) : List (Bool × α) → Option (α × List (Bool × α))
  | [] => none
  | (used, a) :: slots =>
    if !used && p a then some (a, (true, a) :: slots)
    else (claimFirst p slots).map fun (b, rest) => (b, (used, a) :: rest)

def unclaimed (slots : List (Bool × α)) : List α := (slots.filter (!·.1)).map (·.2)

/-- Every taker in turn, with the pairs made and the slots left. -/
def claimAll (r : β → α → Bool) : List β → List (Bool × α) → List (β × α) × List (Bool × α)
  | [], slots => ([], slots)
  | b :: bs, slots =>
    match claimFirst (r b) slots with
    | none => claimAll r bs slots
    | some (a, slots) =>
      let (pairs, slots) := claimAll r bs slots
      ((b, a) :: pairs, slots)

@[simp] theorem unclaimed_free (as : List α) : unclaimed (as.map fun a => (false, a)) = as := by
  unfold unclaimed
  induction as with
  | nil => rfl
  | cons a as ih => simpa using ih

theorem claimFirst_spec (p : α → Bool) : ∀ slots : List (Bool × α),
    (claimFirst p slots = none ∧ (unclaimed slots).find? p = none) ∨
      ∃ a rest, claimFirst p slots = some (a, rest) ∧ (unclaimed slots).find? p = some a ∧
        unclaimed rest = (unclaimed slots).eraseP p
  | [] => .inl ⟨rfl, rfl⟩
  | (true, a) :: slots => by
    rcases claimFirst_spec p slots with ⟨hc, hf⟩ | ⟨b, rest, hc, hf, he⟩
    · exact .inl ⟨by simp [claimFirst, hc], hf⟩
    · exact .inr ⟨b, (true, a) :: rest, by simp [claimFirst, hc], hf, he⟩
  | (false, a) :: slots => by
    have hun : ∀ l : List (Bool × α), unclaimed ((false, a) :: l) = a :: unclaimed l := fun _ => rfl
    by_cases hp : p a = true
    · refine .inr ⟨a, (true, a) :: slots, by simp [claimFirst, hp], ?_, ?_⟩
      · rw [hun, find?_cons_of_pos hp]
      · rw [hun, eraseP_cons_of_pos hp]
        rfl
    · rcases claimFirst_spec p slots with ⟨hc, hf⟩ | ⟨b, rest, hc, hf, he⟩
      · refine .inl ⟨by simp [claimFirst, hp, hc], ?_⟩
        rw [hun, find?_cons_of_neg hp, hf]
      · refine .inr ⟨b, (false, a) :: rest, by simp [claimFirst, hp, hc], ?_, ?_⟩
        · rw [hun, find?_cons_of_neg hp, hf]
        · rw [hun, hun, eraseP_cons_of_neg hp, he]

theorem claimFirst_items {p : α → Bool} : ∀ {slots : List (Bool × α)} {a rest},
    claimFirst p slots = some (a, rest) → rest.map (·.2) = slots.map (·.2)
  | [], _, _, h => by cases h
  | (used, b) :: slots, a, rest, h => by
    unfold claimFirst at h
    split at h
    · cases h
      rfl
    · obtain ⟨⟨a', rest'⟩, hc, e⟩ := map_eq_some_iff.1 h
      cases e
      rw [map_cons, map_cons, claimFirst_items hc]

theorem claimFirst_congr {p q : α → Bool} : ∀ {slots : List (Bool × α)},
    (∀ a ∈ slots.map (·.2), p a = q a) → claimFirst p slots = claimFirst q slots
  | [], _ => rfl
  | (used, b) :: slots, h => by
    have hb : p b = q b := h b (by simp)
    have hrest := @claimFirst_congr p q slots fun a ha => h a (by simp only [map_cons, mem_cons]; exact .inr ha)
    unfold claimFirst
    rw [hb, hrest]

theorem claimFirst_none {p : α → Bool} : ∀ {slots : List (Bool × α)},
    (∀ a ∈ slots.map (·.2), p a = false) → claimFirst p slots = none
  | [], _ => rfl
  | (used, b) :: slots, h => by
    have hb : p b = false := h b (by simp)
    have hrest := @claimFirst_none p slots fun a ha => h a (by simp only [map_cons, mem_cons]; exact .inr ha)
    unfold claimFirst
    rw [hb, hrest, Bool.and_false]
    rfl

/-! ## Pairs -/

variable [DecidableEq κ]

/-- The same on plain lists: the k-th taker of a key with the k-th item of that key. -/
def pairUp (key : β → κ) (key' : α → κ) : List β → List α → List (β × α)
  | [], _ => []
  | b :: bs, as =>
    match as.find? fun a => key' a = key b with
    | none => pairUp key key' bs as
    | some a => (b, a) :: pairUp key key' bs (as.eraseP fun a => key' a = key b)

/-- Every taker has an item of its key, and the items of a key are handed out in their order. -/
structure Paired (key : β → κ) (key' : α → κ) (bs : List β) (as : List α) (pairs : List (β × α)) : Prop where
  takers : pairs.map (·.1) = bs
  keys : ∀ p ∈ pairs, key' p.2 = key p.1
  items : ∀ k, (pairs.filter fun p => key p.1 = k).map (·.2) = as.filter fun a => key' a = k

section Erase

variable {p q : α → Bool} {as : List α} {a : α}

theorem perm_cons_eraseP (h : as.find? p = some a) : as.Perm (a :: as.eraseP p) := by
  induction as with
  | nil => cases h
  | cons b as ih =>
    by_cases hb : p b = true
    · rw [find?_cons_of_pos hb] at h
      cases h
      rw [eraseP_cons_of_pos hb]
    · rw [find?_cons_of_neg hb] at h
      rw [eraseP_cons_of_neg hb]
      exact ((ih h).cons b).trans (.swap a b _)

theorem filter_eq_cons_eraseP (h : as.find? p = some a) : as.filter p = a :: (as.eraseP p).filter p := by
  induction as with
  | nil => cases h
  | cons b as ih =>
    by_cases hb : p b = true
    · rw [find?_cons_of_pos hb] at h
      cases h
      rw [eraseP_cons_of_pos hb, filter_cons_of_pos hb]
    · rw [find?_cons_of_neg hb] at h
      rw [eraseP_cons_of_neg hb, filter_cons_of_neg hb, filter_cons_of_neg hb, ih h]

theorem filter_eraseP_of_disjoint (h : ∀ a, p a = true → q a = false) : (as.eraseP p).filter q = as.filter q := by
  induction as with
  | nil => rfl
  | cons b as ih =>
    by_cases hb : p b = true
    · rw [eraseP_cons_of_pos hb, filter_cons_of_neg (by rw [h b hb]; exact Bool.false_ne_true)]
    · rw [eraseP_cons_of_neg hb, filter_cons, filter_cons, ih]

end Erase

section Greedy

variable {key : β → κ} {key' : α → κ} {bs : List β} {as : List α} {b : β} {a : α} {pairs : List (β × α)}

theorem Paired.cons (h : Paired key key' bs (as.eraseP fun a => key' a = key b) pairs)
    (ha : as.find? (fun a => key' a = key b) = some a) : Paired key key' (b :: bs) as ((b, a) :: pairs) := by
  have hkey : key' a = key b := by simpa using find?_some ha
  refine ⟨by rw [map_cons, h.takers], ?_, fun k => ?_⟩
  · intro p hp
    rcases mem_cons.1 hp with rfl | hp
    · exact hkey
    · exact h.keys p hp
  · by_cases hk : key b = k
    · subst hk
      rw [filter_cons_of_pos (by simp), map_cons, h.items (key b), filter_eq_cons_eraseP ha]
    · rw [filter_cons_of_neg (by simpa using hk), h.items k, filter_eraseP_of_disjoint]
      intro a' ha'
      have : key' a' = key b := by simpa using ha'
      simp [this, hk]

/-- With a taker for every item, the first taker finds one, and the rest match the rest. -/
theorem find?_of_perm (h : ((b :: bs).map key).Perm (as.map key')) :
    ∃ a, as.find? (fun a => key' a = key b) = some a ∧
      (bs.map key).Perm ((as.eraseP fun a => key' a = key b).map key') := by
  have hmem : key b ∈ as.map key' := h.subset (by simp)
  obtain ⟨a0, ha0, hk0⟩ := mem_map.1 hmem
  obtain ⟨a, ha⟩ : ∃ a, as.find? (fun a => key' a = key b) = some a := by
    rw [← isSome_iff_exists, find?_isSome]
    exact ⟨a0, ha0, by simpa using hk0⟩
  have hkey : key' a = key b := by simpa using find?_some ha
  refine ⟨a, ha, ?_⟩
  have hp := h.trans ((perm_cons_eraseP ha).map key')
  rw [map_cons, map_cons, hkey] at hp
  exact hp.cons_inv

theorem pairUp_paired : ∀ {bs : List β} {as : List α}, (bs.map key).Perm (as.map key') →
    Paired key key' bs as (pairUp key key' bs as)
  | [], as, h => by
    have : as = [] := by simpa using h.symm.eq_nil
    subst this
    exact ⟨rfl, fun p hp => (not_mem_nil hp).elim, fun _ => rfl⟩
  | b :: bs, as, h => by
    obtain ⟨a, ha, hrest⟩ := find?_of_perm h
    rw [pairUp, ha]
    exact (pairUp_paired hrest).cons ha

theorem claimAll_paired {r : β → α → Bool} (hr : ∀ b a, r b a = decide (key' a = key b)) :
    ∀ {bs : List β} {slots : List (Bool × α)}, (bs.map key).Perm ((unclaimed slots).map key') →
    Paired key key' bs (unclaimed slots) (claimAll r bs slots).1 ∧ unclaimed (claimAll r bs slots).2 = []
  | [], slots, h => by
    have hnil : unclaimed slots = [] := by simpa using h.symm.eq_nil
    rw [hnil]
    exact ⟨⟨rfl, fun p hp => (not_mem_nil hp).elim, fun _ => rfl⟩, hnil⟩
  | b :: bs, slots, h => by
    obtain ⟨a, ha, hrest⟩ := find?_of_perm h
    have hp : r b = fun a => decide (key' a = key b) := funext (hr b)
    rcases claimFirst_spec (r b) slots with ⟨-, hf⟩ | ⟨a', rest, hc, hf, he⟩
    · rw [hp, ha] at hf
      cases hf
    · rw [hp, ha] at hf
      cases hf
      rw [hp] at he
      rw [← he] at hrest
      obtain ⟨hpaired, hleft⟩ := claimAll_paired hr hrest
      rw [he] at hpaired
      rw [claimAll, hc]
      exact ⟨hpaired.cons ha, hleft⟩

end Greedy

/-! ## What the pairs are determined by -/

theorem eq_of_keys_of_filter {key : α → κ} : ∀ {l l' : List α}, l.map key = l'.map key →
    (∀ k, (l.filter fun a => key a = k) = l'.filter fun a => key a = k) → l = l'
  | [], l', h, _ => (map_eq_nil_iff.1 h.symm).symm
  | a :: l, [], h, _ => by cases h
  | a :: l, a' :: l', h, hf => by
    rw [map_cons, map_cons, List.cons.injEq] at h
    have hhead := hf (key a)
    rw [filter_cons_of_pos (by simp), filter_cons_of_pos (by simpa using h.1.symm), List.cons.injEq] at hhead
    obtain rfl := hhead.1
    refine congrArg (a :: ·) (eq_of_keys_of_filter h.2 fun k => ?_)
    by_cases hk : key a = k
    · subst hk
      exact hhead.2
    · have := hf k
      rwa [filter_cons_of_neg (by simpa using hk), filter_cons_of_neg (by simpa using hk)] at this

namespace Paired

variable {key : β → κ} {key' : α → κ} {bs bs' : List β} {as as' : List α} {pairs pairs' : List (β × α)}

theorem unique (h : Paired key key' bs as pairs) (h' : Paired key key' bs as pairs') : pairs = pairs' := by
  have fst_filter : ∀ (ps : List (β × α)) (k : κ),
      (ps.filter fun p => key p.1 = k).map (·.1) = (ps.map (·.1)).filter fun b => key b = k := by
    intro ps k
    rw [List.filter_map]
    rfl
  refine @eq_of_keys_of_filter _ _ _ (fun p => key p.1) _ _ ?_ fun k => ?_
  · have := congrArg (List.map key) (h.takers.trans h'.takers.symm)
    rwa [List.map_map, List.map_map] at this
  · refine ext_getElem? fun i => ?_
    have h1 := congrArg (·[i]?) ((fst_filter pairs k).trans
      ((congrArg _ (h.takers.trans h'.takers.symm)).trans (fst_filter pairs' k).symm))
    have h2 := congrArg (·[i]?) ((h.items k).trans (h'.items k).symm)
    simp only [getElem?_map] at h1 h2
    revert h1 h2
    generalize (pairs.filter fun p => key p.1 = k)[i]? = x
    generalize (pairs'.filter fun p => key p.1 = k)[i]? = y
    intro h1 h2
    cases x with
    | none =>
      cases y with
      | none => rfl
      | some y => cases h1
    | some x =>
      cases y with
      | none => cases h1
      | some y => exact congrArg some (Prod.ext (some.inj h1) (some.inj h2))

theorem map {β' α' : Type} {f : β → β'} {g : α → α'} {newKey : β' → κ} {newKey' : α' → κ}
    (h : Paired key key' bs as pairs) (hf : ∀ b, newKey (f b) = key b) (hg : ∀ a, newKey' (g a) = key' a) :
    Paired newKey newKey' (bs.map f) (as.map g) (pairs.map (Prod.map f g)) := by
  refine ⟨?_, ?_, fun k => ?_⟩
  · rw [← h.takers, List.map_map, List.map_map]
    rfl
  · intro p hp
    obtain ⟨q, hq, rfl⟩ := mem_map.1 hp
    rw [Prod.map_snd, Prod.map_fst, hf, hg]
    exact h.keys q hq
  · have hitems := congrArg (List.map g) (h.items k)
    rw [List.filter_map, List.filter_map, List.map_map]
    simp only [Function.comp_def, Prod.map_fst, hf, hg]
    rw [← hitems, List.map_map]
    rfl

theorem append (h : Paired key key' bs as pairs) (h' : Paired key key' bs' as' pairs') :
    Paired key key' (bs ++ bs') (as ++ as') (pairs ++ pairs') := by
  refine ⟨?_, ?_, fun k => ?_⟩
  · rw [map_append, h.takers, h'.takers]
  · intro p hp
    rcases mem_append.1 hp with hp | hp
    · exact h.keys p hp
    · exact h'.keys p hp
  · rw [filter_append, map_append, h.items k, h'.items k, filter_append]

theorem perm [DecidableEq α] (h : Paired key key' bs as pairs) : (pairs.map (·.2)).Perm as := by
  rw [perm_iff_count]
  intro a
  have hitems := congrArg (count a) (h.items (key' a))
  have hfilter : (pairs.filter fun p => key p.1 = key' a).map (·.2) =
      (pairs.map (·.2)).filter fun b => key' b = key' a := by
    rw [List.filter_map]
    congr 1
    refine filter_congr fun p hp => ?_
    rw [Function.comp_apply, h.keys p hp]
  rw [hfilter, count_filter (by simp), count_filter (by simp)] at hitems
  exact hitems

theorem keys_perm [DecidableEq α] (h : Paired key key' bs as pairs) : (bs.map key).Perm (as.map key') := by
  have hkeys : bs.map key = (pairs.map (·.2)).map key' := by
    rw [← h.takers, List.map_map, List.map_map]
    exact map_congr_left fun p hp => (h.keys p hp).symm
  rw [hkeys]
  exact h.perm.map key'

end Paired

theorem claimAll_eq {key : β → κ} {key' : α → κ} {r : β → α → Bool} {bs : List β} {as : List α} {pairs : List (β × α)}
    (hr : ∀ b a, r b a = decide (key' a = key b)) (hp : (bs.map key).Perm (as.map key')) (h : Paired key key' bs as pairs) :
    (claimAll r bs (as.map fun a => (false, a))).1 = pairs ∧ unclaimed (claimAll r bs (as.map fun a => (false, a))).2 = [] := by
  rw [← unclaimed_free as] at hp h
  obtain ⟨hpaired, hleft⟩ := claimAll_paired hr hp
  exact ⟨hpaired.unique h, hleft⟩

/-- The items that were claimed and those that are left are the items there were. -/
theorem claimAll_perm (r : β → α → Bool) : ∀ (bs : List β) (slots : List (Bool × α)),
    ((claimAll r bs slots).1.map (·.2) ++ unclaimed (claimAll r bs slots).2).Perm (unclaimed slots)
  | [], slots => .refl _
  | b :: bs, slots => by
    rcases claimFirst_spec (r b) slots with ⟨hc, -⟩ | ⟨a, rest, hc, hf, he⟩
    · rw [claimAll, hc]
      exact claimAll_perm r bs slots
    · rw [claimAll, hc]
      have ih := claimAll_perm r bs rest
      rw [he] at ih
      exact (ih.cons a).trans (perm_cons_eraseP hf).symm

/-! ## More takers than items, or fewer -/

def leftOver (key : β → κ) (key' : α → κ) : List β → List α → List α
  | [], as => as
  | b :: bs, as => leftOver key key' bs (as.eraseP fun a => key' a = key b)

section LeftOver

variable {key : β → κ} {key' : α → κ} {as as' : List α}

theorem claimAll_eq_pairUp {γ : Type} {g : α → γ} {r : β → γ → Bool} (hr : ∀ b a, r b (g a) = decide (key' a = key b)) :
    ∀ {bs : List β} {slots : List (Bool × γ)} {as : List α}, unclaimed slots = as.map g →
    (claimAll r bs slots).1 = (pairUp key key' bs as).map (fun p => (p.1, g p.2)) ∧
      unclaimed (claimAll r bs slots).2 = (leftOver key key' bs as).map g
  | [], slots, as, h => ⟨rfl, h⟩
  | b :: bs, slots, as, h => by
    have hp : r b ∘ g = fun a => decide (key' a = key b) := funext (hr b)
    have hfind : (unclaimed slots).find? (r b) = (as.find? fun a => key' a = key b).map g := by
      rw [h, find?_map, hp]
    rw [pairUp, leftOver]
    rcases claimFirst_spec (r b) slots with ⟨hc, hf⟩ | ⟨c, rest, hc, hf, he⟩
    · have hnone : (as.find? fun a => key' a = key b) = none := by
        rw [hfind] at hf
        exact map_eq_none_iff.1 hf
      rw [claimAll, hc, hnone, eraseP_of_forall_not (find?_eq_none.1 hnone)]
      exact claimAll_eq_pairUp hr h
    · rw [hfind] at hf
      obtain ⟨a, ha, rfl⟩ := map_eq_some_iff.1 hf
      rw [h, eraseP_map, hp] at he
      obtain ⟨hpairs, hleft⟩ : (claimAll r bs rest).1 =
            (pairUp key key' bs (as.eraseP fun a => key' a = key b)).map (fun p => (p.1, g p.2)) ∧
          unclaimed (claimAll r bs rest).2 = (leftOver key key' bs (as.eraseP fun a => key' a = key b)).map g :=
        claimAll_eq_pairUp hr he
      rw [claimAll, hc, ha]
      dsimp only
      rw [hpairs, hleft]
      exact ⟨rfl, rfl⟩

theorem leftOver_sublist : ∀ (bs : List β) (as : List α), (leftOver key key' bs as).Sublist as
  | [], as => .refl as
  | _ :: bs, _ => (leftOver_sublist bs _).trans eraseP_sublist

theorem filter_eraseP_key (b : β) (k : κ) (as : List α) : (as.eraseP fun a => key' a = key b).filter (fun a => key' a = k) =
    if key b = k then (as.filter fun a => key' a = k).tail else as.filter fun a => key' a = k := by
  split
  · rename_i hk
    subst hk
    cases ha : as.find? fun a => key' a = key b with
    | none =>
      rw [eraseP_of_forall_not (find?_eq_none.1 ha), filter_eq_nil_iff.2 (find?_eq_none.1 ha)]
      rfl
    | some a => rw [filter_eq_cons_eraseP ha, tail_cons]
  · rename_i hk
    refine filter_eraseP_of_disjoint fun a ha => ?_
    have hkey : key' a = key b := by simpa using ha
    simp [hkey, hk]

theorem pairUp_congr : ∀ {bs : List β} {as as' : List α},
    (∀ k, (as.filter fun a => key' a = k) = as'.filter fun a => key' a = k) → pairUp key key' bs as = pairUp key key' bs as'
  | [], _, _, _ => rfl
  | b :: bs, as, as', h => by
    have hfind : (as.find? fun a => key' a = key b) = as'.find? fun a => key' a = key b := by
      rw [← head?_filter, ← head?_filter, h]
    have hrest : pairUp key key' bs (as.eraseP fun a => key' a = key b) = pairUp key key' bs (as'.eraseP fun a => key' a = key b) :=
      pairUp_congr fun k => by rw [filter_eraseP_key, filter_eraseP_key, h]
    rw [pairUp, pairUp, hfind, pairUp_congr h, hrest]

theorem filter_pairUp : ∀ (bs : List β) (as : List α) (k : κ),
    ((pairUp key key' bs as).map (·.2)).filter (fun a => key' a = k) =
      (as.filter fun a => key' a = k).take (bs.countP fun b => key b = k) ∧
    (leftOver key key' bs as).filter (fun a => key' a = k) = (as.filter fun a => key' a = k).drop (bs.countP fun b => key b = k)
  | [], as, k => by simp [pairUp, leftOver]
  | b :: bs, as, k => by
    obtain ⟨htaken, hleft⟩ := filter_pairUp bs (as.eraseP fun a => key' a = key b) k
    rw [filter_eraseP_key] at htaken hleft
    rw [pairUp, leftOver, hleft, countP_cons]
    cases ha : as.find? fun a => key' a = key b with
    | none =>
      rw [eraseP_of_forall_not (find?_eq_none.1 ha)] at htaken
      have hnone : key b = k → (as.filter fun a => key' a = k) = [] := by
        rintro rfl
        exact filter_eq_nil_iff.2 (find?_eq_none.1 ha)
      rw [(filter_pairUp bs as k).1]
      by_cases hk : key b = k
      · simp [hnone hk]
      · simp [hk]
    | some a =>
      have hkey : key' a = key b := by simpa using find?_some ha
      rw [map_cons, filter_cons, htaken, hkey]
      by_cases hk : key b = k
      · subst hk
        simp [filter_eq_cons_eraseP ha]
      · simp [hk]

theorem filter_pairUp_append (bs : List β) (as : List α) (k : κ) :
    ((pairUp key key' bs as).map (·.2) ++ leftOver key key' bs as).filter (fun a => key' a = k) = as.filter fun a => key' a = k := by
  rw [filter_append, (filter_pairUp bs as k).1, (filter_pairUp bs as k).2, take_append_drop]

theorem pairUp_append_perm [DecidableEq α] (bs : List β) (as : List α) :
    ((pairUp key key' bs as).map (·.2) ++ leftOver key key' bs as).Perm as := by
  rw [perm_iff_count]
  intro a
  have hcount := congrArg (count a) (@filter_pairUp_append _ _ _ _ key key' bs as (key' a))
  rwa [count_filter (by simp), count_filter (by simp)] at hcount

/-- Among items that differ, what is left over are the items that were not handed out. -/
theorem leftOver_eq_filter [DecidableEq α] (bs : List β) (hn : as.Nodup) :
    leftOver key key' bs as = as.filter fun a => a ∉ (pairUp key key' bs as).map (·.2) := by
  have hsub : ∀ {l l' : List α}, l'.Sublist l → l.Nodup → l' = l.filter (· ∈ l') := by
    intro l l' h
    induction h with
    | slnil => exact fun _ => rfl
    | cons a h ih =>
      intro hn
      rw [filter_cons_of_neg (by simpa using fun hmem => (nodup_cons.1 hn).1 (h.subset hmem))]
      exact ih (nodup_cons.1 hn).2
    | cons_cons a h ih =>
      intro hn
      rw [filter_cons_of_pos (by simp)]
      refine congrArg (a :: ·) ((ih (nodup_cons.1 hn).2).trans (filter_congr fun b hb => ?_))
      have hne : b ≠ a := fun e => (nodup_cons.1 hn).1 (e ▸ hb)
      simp [hne]
  have hperm := @pairUp_append_perm _ _ _ _ key key' _ bs as
  have hdisjoint := (nodup_append.1 (hperm.nodup_iff.2 hn)).2.2
  refine (hsub (leftOver_sublist bs as) hn).trans (filter_congr fun a ha => ?_)
  refine decide_eq_decide.2 ⟨fun hleft hmatched => hdisjoint a hmatched a hleft rfl, fun hnot => ?_⟩
  exact (mem_append.1 (hperm.mem_iff.2 ha)).resolve_left hnot

end LeftOver

end Jwm
