/-
A snapshot planned against the very windows it was captured from. Capture leaves out docks, the status bar and what is on no
tag, the restore does not.
-/
import Jwm.Wm.SessionTiling

namespace Jwm

open List Option

/-- Whether a window of this identity may take the entry of another. -/
def SessionWindowIdentity.mayTake (i entry : SessionWindowIdentity) : Bool :=
  eqIgnoreAsciiCase entry.class i.class &&
    (entry.instance == "" || i.instance == "" || eqIgnoreAsciiCase entry.instance i.instance)

section Considered

variable (cap : Capture) (s : WMState)

/-- What `apply_session_snapshot` plans for: all windows but the scratchpads. -/
def consideredWindows : List (ClientKey × String × String) :=
  (s.clientOrder.filter fun key => !cap.excluded.contains key).filterMap fun key =>
    (s.clients.get? key).map fun c => (key, c.class, c.instance)

def consideredKeys : List ClientKey :=
  s.clientOrder.filter fun key => !cap.excluded.contains key && (s.clients.get? key).isSome

def planOfCapture : List (ClientKey × SessionEntry) :=
  planRestoreDetailed (captureSnapshotExcluding s cap.statusBarName cap.excluded) (consideredWindows cap s)

/-- No window that capture skips comes before a captured one whose entry it may take. -/
def Undisturbed : Prop :=
  (consideredKeys cap s).Pairwise fun key later =>
    recorded cap s key = false → recorded cap s later = true → (s.identityOf key).mayTake (s.identityOf later) = false

end Considered

/-! ## Claiming among free entries -/

section Claims

variable {α : Type} {p : α → Bool}

/-- The slots once the entries `done` are claimed, and those of `free` not yet. -/
def takenThenFree (done free : List α) : List (Bool × α) := done.map (fun a => (true, a)) ++ free.map fun a => (false, a)

theorem claimFirst_used (slots : List (Bool × α)) : ∀ done : List α,
    claimFirst p (done.map (fun a => (true, a)) ++ slots) =
      (claimFirst p slots).map fun r => (r.1, done.map (fun a => (true, a)) ++ r.2)
  | [] => by simp
  | a :: done => by
    rw [map_cons, cons_append, claimFirst, claimFirst_used slots done]
    simp [Option.map_map, Function.comp_def]

theorem claimFirst_eq_none {slots : List (Bool × α)} : claimFirst p slots = none ↔ ∀ a ∈ unclaimed slots, p a = false := by
  have hfind : (∀ a ∈ unclaimed slots, p a = false) ↔ (unclaimed slots).find? p = none := by
    simp
  rw [hfind]
  rcases claimFirst_spec p slots with ⟨hclaim, hnone⟩ | ⟨a, rest, hclaim, hsome, -⟩
  · simp [hclaim, hnone]
  · simp [hclaim, hsome]

theorem unclaimed_takenThenFree (done free : List α) : unclaimed (takenThenFree done free) = free := by
  have hdone : unclaimed (done.map fun a => (true, a)) = [] := by
    simp [unclaimed]
  have happend : ∀ slots slots' : List (Bool × α), unclaimed (slots ++ slots') = unclaimed slots ++ unclaimed slots' := by
    intro slots slots'
    simp [unclaimed]
  rw [takenThenFree, happend, hdone, unclaimed_free, nil_append]

end Claims

theorem claimEntry_eq_none {slots : List (Bool × SessionEntry)} (htags : ∀ e ∈ unclaimed slots, e.tags ≠ 0)
    (i : SessionWindowIdentity) :
    claimEntry slots i.class i.instance = none ↔ ∀ e ∈ unclaimed slots, i.mayTake e.identity = false := by
  unfold claimEntry
  dsimp only
  rw [or_eq_none_iff, claimFirst_eq_none, claimFirst_eq_none, ← forall₂_and]
  refine forall₂_congr fun e he => ?_
  have ht : (e.tags != 0) = true := bne_iff_ne.2 (htags e he)
  unfold SessionWindowIdentity.mayTake SessionEntry.identity
  rw [ht]
  generalize eqIgnoreAsciiCase e.class i.class = sameClass
  generalize eqIgnoreAsciiCase e.instance i.instance = sameInstance
  simp only [bne, Bool.true_and]
  generalize (e.instance == "") = entryBare
  generalize (i.instance == "") = windowBare
  revert sameClass sameInstance entryBare windowBare
  decide

theorem claimEntry_own {e : SessionEntry} (htags : e.tags ≠ 0) (done free : List SessionEntry) :
    claimEntry (takenThenFree done (e :: free)) e.class e.instance = some (e, takenThenFree (done ++ [e]) free) := by
  have hsame : ∀ text, eqIgnoreAsciiCase text text = true := fun text => beq_self_eq_true _
  have ht : (e.tags != 0) = true := bne_iff_ne.2 htags
  have hfirst : ∀ p : SessionEntry → Bool, p e = true →
      claimFirst p (takenThenFree done (e :: free)) = some (e, takenThenFree (done ++ [e]) free) := by
    intro p hp
    rw [takenThenFree, claimFirst_used, map_cons, claimFirst, hp]
    simp [takenThenFree]
  unfold claimEntry
  dsimp only
  by_cases hbare : e.instance = ""
  · -- without an instance the class is enough
    rw [claimFirst_eq_none.2 fun a _ => by simp [hbare], none_or]
    exact hfirst _ (by simp only [ht, hsame, hbare]; rfl)
  · rw [hfirst _ (by simp only [ht, hsame, bne_iff_ne.2 hbare]; rfl), some_or]

/-! ## The plan -/

section Plan

variable {cap : Capture} {s : WMState}

theorem consideredWindows_eq (cap : Capture) (s : WMState) :
    consideredWindows cap s = (consideredKeys cap s).map fun key => (key, (s.identityOf key).class, (s.identityOf key).instance) := by
  unfold consideredWindows consideredKeys
  rw [← List.filter_filter, filter_comm]
  refine filterMap_eq_map_filter fun key _ => ?_
  unfold WMState.identityOf
  cases s.clients.get? key <;> rfl

theorem recordedKeys_eq (cap : Capture) (s : WMState) : recordedKeys cap s = (consideredKeys cap s).filter (recorded cap s) := by
  unfold recordedKeys consideredKeys
  rw [List.filter_filter]
  refine filter_congr fun key _ => ?_
  unfold recorded sessionSkips
  cases s.clients.get? key with
  | none => rfl
  | some c => simp

theorem entryOf_tags {key : ClientKey} (h : recorded cap s key = true) : (entryOf s key).tags ≠ 0 := by
  obtain ⟨c, hc, hskip⟩ := recorded_client h
  rw [entryOf_eq hc]
  exact tags_of_not_skipped hskip

theorem claimEntry_recorded {key : ClientKey} (h : recorded cap s key = true) (done free : List SessionEntry) :
    claimEntry (takenThenFree done (entryOf s key :: free)) (s.identityOf key).class (s.identityOf key).instance =
      some (entryOf s key, takenThenFree (done ++ [entryOf s key]) free) := claimEntry_own (entryOf_tags h) done free

/-- The entries of the windows of `keys` that were captured. -/
def entriesOf (cap : Capture) (s : WMState) (keys : List ClientKey) : List SessionEntry :=
  (keys.filter (recorded cap s)).map (entryOf s)

/-- `key` was captured, or may not take the entry of `later`. -/
def Spares (cap : Capture) (s : WMState) (key later : ClientKey) : Prop :=
  recorded cap s key = false → recorded cap s later = true → (s.identityOf key).mayTake (s.identityOf later) = false

def windowOf (s : WMState) (key : ClientKey) : ClientKey × String × String := (key, (s.identityOf key).class, (s.identityOf key).instance)

/-- A window that was not captured gets no entry exactly when it may take none of those that are free. -/
theorem claimEntry_free_eq_none {key : ClientKey} (hskipped : recorded cap s key = false) (done : List SessionEntry) (keys : List ClientKey) :
    claimEntry (takenThenFree done (entriesOf cap s keys)) (s.identityOf key).class (s.identityOf key).instance = none ↔
      ∀ later ∈ keys, Spares cap s key later := by
  rw [claimEntry_eq_none, unclaimed_takenThenFree]
  · refine ⟨fun h later hlater _ hsaved => h _ (List.mem_map_of_mem (mem_filter.2 ⟨hlater, hsaved⟩)), fun h e he => ?_⟩
    obtain ⟨later, hlater, rfl⟩ := List.mem_map.1 he
    obtain ⟨hmem, hsaved⟩ := mem_filter.1 hlater
    exact h later hmem hskipped hsaved
  · intro e he
    rw [unclaimed_takenThenFree] at he
    obtain ⟨later, hlater, rfl⟩ := List.mem_map.1 he
    exact entryOf_tags (mem_filter.1 hlater).2

/-- Entries are taken in turn, by the windows they were captured from, if no other window may take one of those that are free. -/
theorem planRestoreLoop_own : ∀ (keys : List ClientKey) (done : List SessionEntry), keys.Pairwise (Spares cap s) →
    planRestoreLoop (takenThenFree done (entriesOf cap s keys)) (keys.map (windowOf s)) =
      (keys.filter (recorded cap s)).map fun key => (key, entryOf s key)
  | [], _, _ => rfl
  | key :: keys, done, h => by
    obtain ⟨hkey, hkeys⟩ := pairwise_cons.1 h
    rw [map_cons, windowOf, planRestoreLoop, entriesOf]
    by_cases hrecorded : recorded cap s key = true
    · rw [filter_cons_of_pos hrecorded, map_cons, claimEntry_recorded hrecorded]
      dsimp only
      rw [map_cons]
      exact congrArg _ (planRestoreLoop_own keys (done ++ [entryOf s key]) hkeys)
    · rw [filter_cons_of_neg hrecorded]
      have hnone := (claimEntry_free_eq_none (Bool.eq_false_iff.2 hrecorded) done keys).2 hkey
      rw [entriesOf] at hnone
      rw [hnone]
      exact planRestoreLoop_own keys done hkeys

/-- If only captured windows take an entry, no other window may take one of those that are free when its turn comes. -/
theorem pairwise_of_planRestoreLoop : ∀ (keys : List ClientKey) (done : List SessionEntry),
    (∀ p ∈ planRestoreLoop (takenThenFree done (entriesOf cap s keys)) (keys.map (windowOf s)), recorded cap s p.1 = true) →
    keys.Pairwise (Spares cap s)
  | [], _, _ => .nil
  | key :: keys, done, h => by
    rw [map_cons, windowOf, planRestoreLoop, entriesOf] at h
    by_cases hrecorded : recorded cap s key = true
    · rw [filter_cons_of_pos hrecorded, map_cons, claimEntry_recorded hrecorded] at h
      refine pairwise_cons.2 ⟨fun later _ hskipped => ?_, ?_⟩
      · rw [hrecorded] at hskipped
        cases hskipped
      · exact pairwise_of_planRestoreLoop keys (done ++ [entryOf s key]) fun p hp => h p (mem_cons_of_mem _ hp)
    · have hskipped := Bool.eq_false_iff.2 hrecorded
      rw [filter_cons_of_neg hrecorded, ← entriesOf] at h
      cases hclaim : claimEntry (takenThenFree done (entriesOf cap s keys)) (s.identityOf key).class (s.identityOf key).instance with
      | some claimed =>
        rw [hclaim] at h
        exact absurd (h _ mem_cons_self) hrecorded
      | none =>
        rw [hclaim] at h
        exact pairwise_cons.2 ⟨(claimEntry_free_eq_none hskipped done keys).1 hclaim, pairwise_of_planRestoreLoop keys done h⟩

theorem planOfCapture_eq (cap : Capture) (s : WMState) : planOfCapture cap s =
      planRestoreLoop (takenThenFree [] (entriesOf cap s (consideredKeys cap s))) ((consideredKeys cap s).map (windowOf s)) := by
  unfold planOfCapture planRestoreDetailed
  rw [snapshot_clients, consideredWindows_eq, recordedKeys_eq]
  rfl

/-- Every captured window takes its own entry, and no other window one, exactly when no window that capture skips comes before a captured
one whose entry it may take. -/
theorem planOfCapture_own_iff (cap : Capture) (s : WMState) :
    (planOfCapture cap s = (recordedKeys cap s).map (fun key => (key, entryOf s key)) ↔ Undisturbed cap s) ∧
    ((∀ p ∈ planOfCapture cap s, recorded cap s p.1 = true) ↔ Undisturbed cap s) := by
  have hown : Undisturbed cap s → planOfCapture cap s = (recordedKeys cap s).map fun key => (key, entryOf s key) := by
    intro h
    rw [planOfCapture_eq, recordedKeys_eq]
    exact planRestoreLoop_own _ [] h
  have honly : planOfCapture cap s = (recordedKeys cap s).map (fun key => (key, entryOf s key)) →
      ∀ p ∈ planOfCapture cap s, recorded cap s p.1 = true := by
    intro h p hp
    rw [h] at hp
    obtain ⟨key, hkey, rfl⟩ := List.mem_map.1 hp
    exact (mem_filter.1 hkey).2
  have hdisturbed : (∀ p ∈ planOfCapture cap s, recorded cap s p.1 = true) → Undisturbed cap s := by
    intro h
    rw [planOfCapture_eq] at h
    exact pairwise_of_planRestoreLoop _ [] h
  exact ⟨⟨fun h => hdisturbed (honly h), hown⟩, ⟨hdisturbed, fun h => honly (hown h)⟩⟩

namespace Sample

theorem docked_nodup : ([term1, term2] : List ClientKey).Nodup := by decide

def docked : WMState :=
  { terminals [term1, term2] with
    clients := ⟨[(term1, { terminal 1.0 with state := { (terminal 1.0).state with isDock := true } }), (term2, terminal 2.0)],
      docked_nodup⟩ }

end Sample

/-- The dock takes the entry of the terminal, which gets none. -/
theorem dock_takes_entry :
    (planOfCapture Sample.everything Sample.docked).map Prod.fst = [Sample.term1] ∧
    recordedKeys Sample.everything Sample.docked = [Sample.term2] := by
  decide +kernel

end Plan

end Jwm
