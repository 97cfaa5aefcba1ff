/-
The order of a list that a restore leaves: matched windows in the order of the saved identities, new ones behind them,
scratchpads last, all regrouped by the floating flag.
-/
import Jwm.Data.StableSort
import Jwm.Wm.SessionPlan

namespace Jwm

open List SessionWindowIdentity

/-! ## Regrouping -/

variable {α : Type} {f : α → Bool} {l : List α}

theorem grouped_iff_sorted : Grouped f l ↔ l.Pairwise (f · ≤ f ·) := by
  simp only [Grouped, Bool.le_iff_imp]

theorem sortByKey_flag (f : α → Bool) (l : List α) : sortByKey f l = l.filter (!f ·) ++ l.filter f := by
  refine eq_of_sorted_of_filter (sortByKey_pairwise f l) (grouped_iff_sorted.1 ?_) fun b => ?_
  · refine grouped_iff.2 ⟨_, _, rfl, fun a ha => ?_, fun a ha => (mem_filter.1 ha).2⟩
    simpa using (mem_filter.1 ha).2
  · rw [filter_key_sortByKey, filter_append, filter_filter, filter_filter]
    cases b <;> simp

theorem sortByKey_of_grouped (h : Grouped f l) : sortByKey f l = l := by
  rw [sortByKey_flag, ← h.eq_filter]

/-! ## The parts of a list -/

section Parts

variable (env : SessionEnv) (s : WMState) (saved : SessionMonitorOrder) (keys : List ClientKey)

def seatedKeys : List ClientKey := keys.filter fun key => !env.scratchpads.contains key

def heldBackKeys : List ClientKey := keys.filter fun key => env.scratchpads.contains key

/-- The windows that fill the saved places, in their order. -/
def matchedKeys : List ClientKey :=
  (pairUp SessionWindowIdentity.folded (fun key => (s.identityOf key).folded) saved.clients (seatedKeys env keys)).map (·.2)

def newKeys : List ClientKey := (seatedKeys env keys).filter fun key => key ∉ matchedKeys env s saved keys

/-- What the check after a restore expects the list to be. -/
def expectedOrder : List ClientKey :=
  let current := keys.filterMap fun key => (s.clients.get? key).map fun c => (key, c.identity)
  let (held, current) := current.partition fun entry => env.scratchpads.contains entry.1
  sortByKey s.isClientFloating (planOrderRestore saved.clients current ++ held.map (·.1))

end Parts

section Restored

variable {env : SessionEnv} {s : WMState} {saved : SessionMonitorOrder} {keys : List ClientKey}

theorem newKeys_eq (hn : keys.Nodup) : newKeys env s saved keys =
    leftOver folded (fun key => (s.identityOf key).folded) saved.clients (seatedKeys env keys) :=
  (leftOver_eq_filter saved.clients (hn.filter _)).symm

theorem planOrderRestore_seated (hn : keys.Nodup) :
    planOrderRestore saved.clients ((seatedKeys env keys).map fun key => (key, s.identityOf key)) =
      matchedKeys env s saved keys ++ newKeys env s saved keys := by
  have hclaim := @claimAll_eq_pairUp _ _ _ _ folded (fun key => (s.identityOf key).folded) _
    (fun key => (key, s.identityOf key)) (fun identity entry => SessionWindowIdentity.matches entry.2 identity)
    (fun identity key => matches_eq _ identity) saved.clients _ (seatedKeys env keys)
    (unclaimed_free ((seatedKeys env keys).map fun key => (key, s.identityOf key)))
  unfold planOrderRestore
  dsimp only
  rw [hclaim.1, hclaim.2, newKeys_eq hn, List.map_map, List.map_map]
  simp [matchedKeys, Function.comp_def]

/-- The check does not depend on unknown clients, and neither does the restore where there are none. -/
theorem expectedOrder_eq (hn : keys.Nodup) (hlive : ∀ key ∈ keys, (s.clients.get? key).isSome = true) :
    expectedOrder env s saved keys =
      sortByKey s.isClientFloating (matchedKeys env s saved keys ++ newKeys env s saved keys ++ heldBackKeys env keys) := by
  have hcurrent : (keys.filterMap fun key => (s.clients.get? key).map fun c => (key, c.identity)) =
      keys.map fun key => (key, s.identityOf key) := by
    refine (filterMap_eq_map_filter (p := fun _ => true) fun key hkey => ?_).trans (by rw [filter_true])
    obtain ⟨c, hc⟩ := Option.isSome_iff_exists.1 (hlive key hkey)
    simp [WMState.identityOf, hc]
  unfold expectedOrder
  dsimp only
  rw [hcurrent, partition_eq_filter_filter]
  rw [filter_map, filter_map, List.map_map]
  simp only [Function.comp_def]
  refine congrArg (sortByKey _) ?_
  exact congrArg₂ _ (planOrderRestore_seated hn) (by rw [map_id']; rfl)

theorem reorderedList_eq_expectedOrder (hlive : ∀ key ∈ keys, (s.clients.get? key).isSome = true) :
    reorderedList env s saved keys = expectedOrder env s saved keys := by
  have hlength : (keys.filterMap fun key => (s.clients.get? key).map fun c => (key, c.identity)).length = keys.length := by
    rw [filterMap_length_eq_length]
    intro key hkey
    rw [Option.isSome_map]
    exact hlive key hkey
  unfold reorderedList expectedOrder
  dsimp only
  rw [if_neg (not_not.2 hlength), sortByKey_flag]

/-! ## A second restore -/

theorem matchedKeys_seated : ∀ key ∈ matchedKeys env s saved keys, key ∈ seatedKeys env keys := by
  intro key hkey
  exact (pairUp_append_perm saved.clients (seatedKeys env keys)).subset (mem_append_left _ hkey)

/-- Of the parts of a list the seated windows are the matched and the new ones. -/
theorem filter_seated_parts :
    (matchedKeys env s saved keys ++ newKeys env s saved keys ++ heldBackKeys env keys).filter
        (fun key => !env.scratchpads.contains key) = matchedKeys env s saved keys ++ newKeys env s saved keys ∧
    (matchedKeys env s saved keys ++ newKeys env s saved keys ++ heldBackKeys env keys).filter
        (fun key => env.scratchpads.contains key) = heldBackKeys env keys := by
  have hseated : ∀ key ∈ matchedKeys env s saved keys ++ newKeys env s saved keys, (!env.scratchpads.contains key) = true := by
    intro key hkey
    rcases mem_append.1 hkey with hkey | hkey
    · exact (mem_filter.1 (matchedKeys_seated key hkey)).2
    · exact (mem_filter.1 (mem_filter.1 hkey).1).2
  have hheld : ∀ key ∈ heldBackKeys env keys, env.scratchpads.contains key = true := fun key hkey => (mem_filter.1 hkey).2
  constructor
  · rw [filter_append, filter_eq_self.2 hseated, filter_eq_nil_iff.2, append_nil]
    intro key hkey
    rw [hheld key hkey]
    exact Bool.false_ne_true
  · rw [filter_append, filter_eq_self.2 hheld, filter_eq_nil_iff.2, nil_append]
    intro key hkey
    have hnot := hseated key hkey
    rw [Bool.not_eq_true'] at hnot
    rw [hnot]
    exact Bool.false_ne_true

section

variable (hn : keys.Nodup) (hg : Grouped s.isClientFloating keys) (hlive : ∀ key ∈ keys, (s.clients.get? key).isSome = true)
include hn hg hlive

theorem seatedKeys_restored (i : List Char × List Char) :
    (seatedKeys env (expectedOrder env s saved keys)).filter (fun key => (s.identityOf key).folded = i) =
      (seatedKeys env keys).filter fun key => (s.identityOf key).folded = i := by
  have hparts : (matchedKeys env s saved keys ++ newKeys env s saved keys).filter (fun key => (s.identityOf key).folded = i) =
      (seatedKeys env keys).filter fun key => (s.identityOf key).folded = i := by
    rw [newKeys_eq hn]
    exact filter_pairUp_append saved.clients (seatedKeys env keys) i
  rw [expectedOrder_eq hn hlive, seatedKeys, sortByKey_filter, filter_seated_parts.1, sortByKey_filter, hparts]
  exact sortByKey_of_grouped ((hg.sublist filter_sublist).sublist filter_sublist)

theorem expectedOrder_idem :
    expectedOrder env s saved (expectedOrder env s saved keys) = expectedOrder env s saved keys := by
  have hperm : (expectedOrder env s saved keys).Perm keys := by
    rw [← reorderedList_eq_expectedOrder hlive]
    exact reorderedList_perm env s saved keys
  have hmatched : matchedKeys env s saved (expectedOrder env s saved keys) = matchedKeys env s saved keys :=
    congrArg (List.map Prod.snd) (pairUp_congr fun i => seatedKeys_restored hn hg hlive i)
  have hnew : newKeys env s saved (expectedOrder env s saved keys) = sortByKey s.isClientFloating (newKeys env s saved keys) := by
    have hparts : (matchedKeys env s saved keys ++ newKeys env s saved keys).filter (fun key => key ∉ matchedKeys env s saved keys) =
        newKeys env s saved keys := by
      rw [filter_append, filter_eq_nil_iff.2 (by simp), nil_append]
      exact filter_eq_self.2 fun key hkey => (mem_filter.1 hkey).2
    rw [newKeys, hmatched, expectedOrder_eq hn hlive, seatedKeys, sortByKey_filter, filter_seated_parts.1, sortByKey_filter, hparts]
  have hheld : heldBackKeys env (expectedOrder env s saved keys) = sortByKey s.isClientFloating (heldBackKeys env keys) := by
    rw [expectedOrder_eq hn hlive, heldBackKeys, sortByKey_filter, filter_seated_parts.2]
  rw [expectedOrder_eq (hperm.nodup_iff.2 hn) fun key hkey => hlive key (hperm.subset hkey), hmatched, hnew, hheld,
    expectedOrder_eq hn hlive]
  refine eq_of_sorted_of_filter (sortByKey_pairwise _ _) (sortByKey_pairwise _ _) fun b => ?_
  simp only [filter_key_sortByKey, filter_append]

end

/-! ## The captured order -/

/-- Lists in two groups, of the same windows in another order, that read alike have their flags alike. -/
theorem flags_eq {κ : Type} [DecidableEq κ] {f : ClientKey → Bool} {key : ClientKey → κ} {l l' : List ClientKey}
    (hkeys : l.map key = l'.map key) (hgroup : ∀ i, ((l.filter fun a => key a = i).map f).Perm ((l'.filter fun a => key a = i).map f))
    (hl : ∀ i, Grouped f (l.filter fun a => key a = i)) (hl' : ∀ i, Grouped f (l'.filter fun a => key a = i)) :
    l.map f = l'.map f := by
  have hside : ∀ {l : List ClientKey} (i : κ), ((l.map fun a => (key a, f a)).filter fun p => p.1 = i) =
      ((l.filter fun a => key a = i).map f).map fun b => (i, b) := by
    intro l i
    rw [filter_map, List.map_map]
    refine map_congr_left fun a ha => ?_
    have hkey : key a = i := by simpa using (mem_filter.1 ha).2
    rw [Function.comp_apply, hkey]
  have hpairs : (l.map fun a => (key a, f a)) = l'.map fun a => (key a, f a) := by
    refine @eq_of_keys_of_filter _ _ _ Prod.fst _ _ ?_ fun i => ?_
    · rw [List.map_map, List.map_map]
      exact hkeys
    · have hsorted : ∀ {l : List ClientKey}, Grouped f (l.filter fun a => key a = i) →
          ((l.filter fun a => key a = i).map f).Pairwise (· ≤ ·) := by
        intro l h
        rw [pairwise_map]
        exact grouped_iff_sorted.1 h
      rw [hside, hside, (hgroup i).eq_of_pairwise (fun _ _ _ _ => le_antisymm) (hsorted (hl i)) (hsorted (hl' i))]
  have hsnd := congrArg (List.map Prod.snd) hpairs
  rwa [List.map_map, List.map_map] at hsnd

/-- Windows whose list was captured come back in the captured order, whatever order of their groups they stand in. -/
theorem expectedOrder_captured (hn : keys.Nodup) (hg : Grouped s.isClientFloating keys)
    (hlive : ∀ key ∈ keys, (s.clients.get? key).isSome = true) (hordinary : ∀ key ∈ keys, env.scratchpads.contains key = false)
    {captured : List ClientKey} (hperm : captured.Perm keys) (hcaptured : Grouped s.isClientFloating captured)
    (hsaved : saved.clients = captured.map s.identityOf) :
    (expectedOrder env s saved keys).map (fun key => (s.identityOf key).folded) = saved.clients.map folded := by
  have hseated : seatedKeys env keys = keys := by
    refine filter_eq_self.2 fun key hkey => ?_
    rw [hordinary key hkey]
    rfl
  have hheld : heldBackKeys env keys = [] := by
    refine filter_eq_nil_iff.2 fun key hkey => ?_
    rw [hordinary key hkey]
    exact Bool.false_ne_true
  have hkeys : (saved.clients.map folded).Perm (keys.map fun key => (s.identityOf key).folded) := by
    rw [hsaved, List.map_map]
    exact hperm.map _
  have hpaired := pairUp_paired hkeys
  have hmatched : (matchedKeys env s saved keys).map (fun key => (s.identityOf key).folded) =
      captured.map fun key => (s.identityOf key).folded := by
    have hread : (matchedKeys env s saved keys).map (fun key => (s.identityOf key).folded) =
        saved.clients.map folded := by
      rw [matchedKeys, hseated, List.map_map]
      conv_rhs => rw [← hpaired.takers]
      rw [List.map_map]
      exact map_congr_left fun p hp => hpaired.keys p hp
    rw [hread, hsaved, List.map_map]
    rfl
  -- every saved place is filled, so that no window is new
  have hnew : newKeys env s saved keys = [] := by
    have htotal := (@pairUp_append_perm _ _ _ _ folded (fun key => (s.identityOf key).folded) _ saved.clients
      (seatedKeys env keys)).length_eq
    have hlength := congrArg length hmatched
    rw [length_map, length_map, hperm.length_eq] at hlength
    rw [length_append, ← newKeys_eq hn, hseated] at htotal
    rw [← length_eq_zero_iff]
    unfold matchedKeys at hlength
    rw [hseated] at hlength
    omega
  have hflags : (matchedKeys env s saved keys).map s.isClientFloating = captured.map s.isClientFloating := by
    have hsame : ∀ i, (matchedKeys env s saved keys).filter (fun key => (s.identityOf key).folded = i) =
        keys.filter fun key => (s.identityOf key).folded = i := by
      intro i
      have hparts := @filter_pairUp_append _ _ _ _ folded (fun key => (s.identityOf key).folded) saved.clients
        (seatedKeys env keys) i
      rw [← newKeys_eq hn, hnew, append_nil, hseated] at hparts
      rw [matchedKeys, hseated]
      exact hparts
    refine flags_eq hmatched (fun i => ?_) (fun i => ?_) fun i => hcaptured.sublist filter_sublist
    · rw [hsame]
      exact ((hperm.filter _).map _).symm
    · rw [hsame]
      exact hg.sublist filter_sublist
  have hgrouped : Grouped s.isClientFloating (matchedKeys env s saved keys) := by
    rw [grouped_iff_sorted, ← pairwise_map (f := s.isClientFloating) (R := (· ≤ ·)), hflags, pairwise_map]
    exact grouped_iff_sorted.1 hcaptured
  rw [expectedOrder_eq hn hlive, hnew, hheld, append_nil, append_nil, sortByKey_of_grouped hgrouped, hmatched, hsaved,
    List.map_map]
  rfl

/-- The order a restore leaves is a permutation in two groups, each with its matched windows, then the new ones as they
stood, then its scratchpads; another restore leaves it as it is; and where the list is the captured one but for the order of
its groups, it reads as it was captured. -/
theorem restored_order (hn : keys.Nodup) (hg : Grouped s.isClientFloating keys)
    (hlive : ∀ key ∈ keys, (s.clients.get? key).isSome = true) :
    (reorderedList env s saved keys).Perm keys ∧
    Grouped s.isClientFloating (reorderedList env s saved keys) ∧
    (∀ b, (reorderedList env s saved keys).filter (fun key => s.isClientFloating key = b) =
      (matchedKeys env s saved keys).filter (fun key => s.isClientFloating key = b) ++
        (newKeys env s saved keys).filter (fun key => s.isClientFloating key = b) ++
        (heldBackKeys env keys).filter fun key => s.isClientFloating key = b) ∧
    (∀ i, (matchedKeys env s saved keys).filter (fun key => (s.identityOf key).folded = i) =
      ((seatedKeys env keys).filter fun key => (s.identityOf key).folded = i).take
        (saved.clients.countP fun identity => identity.folded = i)) ∧
    reorderedList env s saved (reorderedList env s saved keys) = reorderedList env s saved keys ∧
    expectedOrder env s saved (reorderedList env s saved keys) = reorderedList env s saved keys ∧
    ∀ captured : List ClientKey, captured.Perm keys → Grouped s.isClientFloating captured →
      (∀ key ∈ keys, env.scratchpads.contains key = false) → saved.clients = captured.map s.identityOf →
      (reorderedList env s saved keys).map (fun key => (s.identityOf key).folded) =
        saved.clients.map SessionWindowIdentity.folded := by
  have hperm := reorderedList_perm env s saved keys
  have hidem := @expectedOrder_idem env s saved keys hn hg hlive
  have hsecond := @reorderedList_eq_expectedOrder env s saved (reorderedList env s saved keys) fun key hkey =>
    hlive key (hperm.subset hkey)
  rw [hsecond, reorderedList_eq_expectedOrder hlive] at *
  refine ⟨hperm, ?_, fun b => ?_, fun i => (filter_pairUp saved.clients (seatedKeys env keys) i).1, hidem, hidem, ?_⟩
  · rw [expectedOrder_eq hn hlive, grouped_iff_sorted]
    exact sortByKey_pairwise _ _
  · rw [expectedOrder_eq hn hlive, filter_key_sortByKey, filter_append, filter_append]
  · exact fun captured hcaptured hgrouped hordinary hsaved =>
      expectedOrder_captured hn hg hlive hordinary hcaptured hgrouped hsaved

open Sample

theorem restored_order_sample :
    expectedOrder Sample.quietEnv (Sample.terminals [Sample.term2, Sample.term1])
      ⟨0, none, [Sample.term1, Sample.term2].map (Sample.terminals []).identityOf⟩
      (reorderedList Sample.quietEnv (Sample.terminals [Sample.term2, Sample.term1])
        ⟨0, none, [Sample.term1, Sample.term2].map (Sample.terminals []).identityOf⟩ [Sample.term2, Sample.term1]) =
    reorderedList Sample.quietEnv (Sample.terminals [Sample.term2, Sample.term1])
      ⟨0, none, [Sample.term1, Sample.term2].map (Sample.terminals []).identityOf⟩ [Sample.term2, Sample.term1] :=
  (@restored_order quietEnv (terminals [term2, term1])
    ⟨0, none, [term1, term2].map (terminals []).identityOf⟩ [term2, term1] (by decide)
    (grouped_iff_sorted.2 (by decide +kernel)) (by decide +kernel)).2.2.2.2.2.1

namespace Sample

/-- Two windows whose classes differ in letter case only. -/
def cased : WMState :=
  { terminals [term2, term1] with
    clients := ⟨[(term1, { terminal 1.0 with «class» := "Term" }), (term2, terminal 2.0)], docked_nodup⟩ }

end Sample

/-- Captured in one order and standing in the other, they stay as they stand. -/
theorem other_case_fills_place :
    [Sample.term1, Sample.term2].Perm [Sample.term2, Sample.term1] ∧
    (∀ key ∈ [Sample.term1, Sample.term2], Sample.cased.isClientFloating key = false) ∧
    (reorderedList Sample.quietEnv Sample.cased ⟨0, none, [Sample.term1, Sample.term2].map Sample.cased.identityOf⟩
      [Sample.term2, Sample.term1]).map Sample.cased.identityOf ≠ [Sample.term1, Sample.term2].map Sample.cased.identityOf := by
  decide +kernel

end Restored

end Jwm
