/-
The idle policy (`jwm/features/idle.rs`): which stages a poll enters and leaves, and when a session is locked again. Instants and
durations are in nanoseconds.
-/
import Mathlib.Algebra.Ring.Nat
import Mathlib.Data.List.Basic
import Mathlib.Data.Bool.Basic

namespace Jwm.Features

def unlockGrace : Nat := 60 * 10 ^ 9

def lockRetryInterval : Nat := 5 * 10 ^ 9

def unexplainedLockRetries : Nat := 12

inductive LockFailure where
  | transient
  | unexplained
  | permanent

def lockFailureRetries : LockFailure → Nat → Bool
  | .transient, _ => true
  | .unexplained, failuresInARow => failuresInARow < unexplainedLockRetries
  | .permanent, _ => false

inductive IdleAction where
  | dim (level : Float32)
  | undim
  | lock
  | screenOff
  | screenOn

structure IdleSettings where
  dimAfter : Option Nat
  dimLevel : Float32
  lockAfter : Option Nat
  screenOffAfter : Option Nat

def IdleSettings.firstStage (s : IdleSettings) : Option Nat := ([s.dimAfter, s.lockAfter, s.screenOffAfter].filterMap id).min?

structure IdleTracker where
  dimmed : Bool := false
  previousIdle : Option Nat := none
  screenOff : Bool := false
  lockAsked : Bool := false
  wasLocked : Bool := false
  unlockedAt : Option Nat := none
  lockRetryAt : Option Nat := none
  lockFailures : Nat := 0

namespace IdleTracker

def inUnlockGrace (t : IdleTracker) (now : Nat) : Bool := t.unlockedAt.any fun at_ => now - at_ < unlockGrace

def wake (t : IdleTracker) : IdleTracker × List IdleAction :=
  ({ t with lockAsked := false, lockRetryAt := none, lockFailures := 0, screenOff := false, dimmed := false },
    (if t.screenOff then [.screenOn] else []) ++ if t.dimmed then [.undim] else [])

/-- What `poll` notes of the lock screen before anything else. -/
def observe (t : IdleTracker) (locked : Bool) (now : Nat) : IdleTracker :=
  let t := if t.wasLocked && !locked then { t with unlockedAt := some now } else t
  let t := { t with wasLocked := locked }
  if locked then { t with lockRetryAt := none, lockFailures := 0 } else t

section

variable (settings : IdleSettings) (idle : Nat) (s : IdleTracker × List IdleAction)

def restoreScreen : IdleTracker × List IdleAction :=
  if s.1.screenOff && settings.screenOffAfter.all (idle < ·) then ({ s.1 with screenOff := false }, s.2 ++ [.screenOn]) else s

def restoreDim : IdleTracker × List IdleAction :=
  if s.1.dimmed && settings.dimAfter.all (idle < ·) then ({ s.1 with dimmed := false }, s.2 ++ [.undim]) else s

def dimScreen : IdleTracker × List IdleAction :=
  if settings.dimAfter.any (· ≤ idle) && !s.1.dimmed then ({ s.1 with dimmed := true }, s.2 ++ [.dim settings.dimLevel]) else s

def askLock (locked : Bool) (now : Nat) : IdleTracker × List IdleAction :=
  if settings.lockAfter.any (· ≤ idle) && !locked && !s.1.lockAsked && !s.1.inUnlockGrace now && s.1.lockRetryAt.all (· ≤ now) then
    ({ s.1 with lockAsked := true, lockRetryAt := none }, s.2 ++ [.lock])
  else s

def turnScreenOff : IdleTracker × List IdleAction :=
  if settings.screenOffAfter.any (· ≤ idle) && !s.1.screenOff then ({ s.1 with screenOff := true }, s.2 ++ [.screenOff]) else s

end

/-- What `poll` does in a session past its first stage. -/
def stages (settings : IdleSettings) (idle : Nat) (locked : Bool) (now : Nat) (s : IdleTracker × List IdleAction) :
    IdleTracker × List IdleAction :=
  let s := dimScreen settings idle (restoreDim settings idle (restoreScreen settings idle s))
  turnScreenOff settings idle (askLock settings idle s locked now)

/-- `actions.extend(self.wake())`. -/
def extendWake (s : IdleTracker × List IdleAction) : IdleTracker × List IdleAction := (s.1.wake.1, s.2 ++ s.1.wake.2)

def isAwake (settings : IdleSettings) (idle : Nat) (inhibited : Bool) : Bool := inhibited || settings.firstStage.all (idle < ·)

def poll (t : IdleTracker) (settings : IdleSettings) (idle : Nat) (inhibited locked : Bool) (now : Nat) : IdleTracker × List IdleAction :=
  let t := t.observe locked now
  let restarted := t.previousIdle.any (idle < ·)
  let s := ({ t with previousIdle := some idle }, [])
  let s := if restarted then extendWake s else s
  if isAwake settings idle inhibited then extendWake s else stages settings idle locked now s

/-- Instants are far from their end. -/
def noteLockFailed (t : IdleTracker) (now : Nat) (failure : LockFailure) : IdleTracker × Nat :=
  let failures := min (t.lockFailures + 1) (2 ^ 32 - 1)
  (if lockFailureRetries failure failures then
      { t with lockFailures := failures, lockAsked := false, lockRetryAt := some (now + lockRetryInterval) }
    else { t with lockFailures := failures, lockAsked := true, lockRetryAt := none }, failures)

/-! ## What one poll does -/

def dimKind : IdleAction → Option Bool
  | .dim _ => some true
  | .undim => some false
  | _ => none

def screenKind : IdleAction → Option Bool
  | .screenOff => some true
  | .screenOn => some false
  | _ => none

def isLock : IdleAction → Bool
  | .lock => true
  | _ => false

/-- The flag after these switches, each of which changes it. -/
def Toggles (flag : Bool) : List Bool → Bool → Prop
  | [], flag' => flag' = flag
  | b :: bs, flag' => b = !flag ∧ Toggles b bs flag'

theorem Toggles.append {a b c : Bool} {xs ys : List Bool} (h : Toggles a xs b) (h' : Toggles b ys c) : Toggles a (xs ++ ys) c := by
  induction xs generalizing a with
  | nil => exact h ▸ h'
  | cons x xs ih => exact ⟨h.1, ih h.2⟩

def memory (t : IdleTracker) : Option Nat × Bool × Option Nat := (t.previousIdle, t.wasLocked, t.unlockedAt)

/-- How a poll comes from `t` to `s`: its switches are those its actions name, and it asks for a lock only where that is due.
-/
structure Passed (due : Prop) (t : IdleTracker) (s : IdleTracker × List IdleAction) : Prop where
  dims : Toggles t.dimmed (s.2.filterMap dimKind) s.1.dimmed
  screens : Toggles t.screenOff (s.2.filterMap screenKind) s.1.screenOff
  memory : s.1.memory = t.memory
  lock : if s.2.any isLock then due ∧ s.1.lockAsked = true ∧ s.2.countP isLock = 1
    else s.1.lockAsked = t.lockAsked ∧ s.1.lockRetryAt = t.lockRetryAt

variable {due : Prop} {t : IdleTracker} {s : IdleTracker × List IdleAction} {settings : IdleSettings} {idle now : Nat} {locked : Bool}

theorem Passed.act (h : Passed due t s) {t' : IdleTracker} {a : IdleAction} (hdim : Toggles s.1.dimmed ([a].filterMap dimKind) t'.dimmed)
    (hscreen : Toggles s.1.screenOff ([a].filterMap screenKind) t'.screenOff) (hmemory : t'.memory = s.1.memory)
    (hlock : isLock a = false ∧ t'.lockAsked = s.1.lockAsked ∧ t'.lockRetryAt = s.1.lockRetryAt) : Passed due t (t', s.2 ++ [a]) where
  dims := by
    rw [List.filterMap_append]
    exact h.dims.append hdim
  screens := by
    rw [List.filterMap_append]
    exact h.screens.append hscreen
  memory := hmemory.trans h.memory
  lock := by
    have hsame := h.lock
    simpa [hlock, List.countP_append, List.countP_cons] using hsame

theorem Passed.stages (h : Passed False t s) : Passed ((∃ after, settings.lockAfter = some after ∧ after ≤ idle) ∧ locked = false ∧
    t.lockAsked = false ∧ t.inUnlockGrace now = false ∧ t.lockRetryAt.all (· ≤ now) = true) t (stages settings idle locked now s) := by
  have hscreen : Passed False t (restoreScreen settings idle s) := by
    unfold restoreScreen
    split
    · exact h.act rfl (by simp_all [screenKind, Toggles]) rfl (by simp [isLock])
    · exact h
  have hdim : Passed False t (restoreDim settings idle (restoreScreen settings idle s)) := by
    unfold restoreDim
    split
    · exact hscreen.act (by simp_all [dimKind, Toggles]) rfl rfl (by simp [isLock])
    · exact hscreen
  have hdimmed : Passed False t (dimScreen settings idle (restoreDim settings idle (restoreScreen settings idle s))) := by
    unfold dimScreen
    split
    · exact hdim.act (by simp_all [dimKind, Toggles]) rfl rfl (by simp [isLock])
    · exact hdim
  simp only [IdleTracker.stages]
  generalize dimScreen settings idle (restoreDim settings idle (restoreScreen settings idle s)) = s at hdimmed
  -- No lock was asked for up to here, so that the lock is judged by what the poll started from.
  obtain ⟨hdims, hscreens, hmemory, hlock⟩ := hdimmed
  have hnone : s.2.any isLock = false := by
    cases hany : s.2.any isLock with
    | false => rfl
    | true => exact ((if_pos hany).mp hlock).1.elim
  simp only [hnone, Bool.false_eq_true, if_false] at hlock
  have hasked : Passed ((∃ after, settings.lockAfter = some after ∧ after ≤ idle) ∧ locked = false ∧ t.lockAsked = false ∧
      t.inUnlockGrace now = false ∧ t.lockRetryAt.all (· ≤ now) = true) t (askLock settings idle s locked now) := by
    unfold askLock
    split
    · rename_i hdue
      have hgrace : s.1.inUnlockGrace now = t.inUnlockGrace now := by
        unfold inUnlockGrace
        rw [show s.1.unlockedAt = t.unlockedAt from congrArg (fun m => m.2.2) hmemory]
      refine ⟨by simpa [List.filterMap_cons, dimKind] using hdims, by simpa [List.filterMap_cons, screenKind] using hscreens, hmemory, ?_⟩
      have hzero : s.2.countP isLock = 0 := List.countP_eq_zero.2 fun a ha => by simpa using List.any_eq_false.1 hnone a ha
      simp_all [isLock, Option.any_eq_true]
    · exact ⟨hdims, hscreens, hmemory, by simpa [hnone] using hlock⟩
  unfold turnScreenOff
  split
  · exact hasked.act rfl (by simp_all [screenKind, Toggles]) rfl (by simp [isLock])
  · exact hasked

/-- What a poll does, whatever it starts from; `woken` polls forget every lock asked for. -/
structure Polled (t : IdleTracker) (settings : IdleSettings) (idle : Nat) (inhibited locked : Bool) (now : Nat)
    (s : IdleTracker × List IdleAction) : Prop where
  dims : Toggles t.dimmed (s.2.filterMap dimKind) s.1.dimmed
  screens : Toggles t.screenOff (s.2.filterMap screenKind) s.1.screenOff
  memory : s.1.memory = (some idle, locked, if t.wasLocked && !locked then some now else t.unlockedAt)
  awake : isAwake settings idle inhibited = true → s.1.dimmed = false ∧ s.1.screenOff = false
  lock : if s.2.any isLock then (∃ after, settings.lockAfter = some after ∧ after ≤ idle) ∧ locked = false ∧
      (t.observe locked now).inUnlockGrace now = false ∧
      (t.previousIdle.any (idle < ·) = false → t.lockAsked = false ∧ t.lockRetryAt.all (· ≤ now) = true) ∧
      s.1.lockAsked = true ∧ s.2.countP isLock = 1
    else (t.previousIdle.any (idle < ·) || isAwake settings idle inhibited) = false →
      s.1.lockAsked = t.lockAsked ∧ (s.1.lockRetryAt = t.lockRetryAt ∨ locked = true)

theorem extendWake_spec (hdims : Toggles t.dimmed (s.2.filterMap dimKind) s.1.dimmed)
    (hscreens : Toggles t.screenOff (s.2.filterMap screenKind) s.1.screenOff) :
    Toggles t.dimmed ((extendWake s).2.filterMap dimKind) false ∧ Toggles t.screenOff ((extendWake s).2.filterMap screenKind) false ∧
      (extendWake s).1.memory = s.1.memory ∧ (extendWake s).2.any isLock = s.2.any isLock := by
  have hdim : Toggles s.1.dimmed (s.1.wake.2.filterMap dimKind) false := by
    cases hd : s.1.dimmed <;> cases hs : s.1.screenOff <;> simp [wake, hd, hs, dimKind, Toggles, List.filterMap_cons]
  have hscreen : Toggles s.1.screenOff (s.1.wake.2.filterMap screenKind) false := by
    cases hd : s.1.dimmed <;> cases hs : s.1.screenOff <;> simp [wake, hd, hs, screenKind, Toggles, List.filterMap_cons]
  have hlock : s.1.wake.2.any isLock = false := by
    cases hd : s.1.dimmed <;> cases hs : s.1.screenOff <;> simp [wake, hd, hs, isLock]
  simp only [extendWake, List.filterMap_append, List.any_append, hlock, Bool.or_false]
  exact ⟨hdims.append hdim, hscreens.append hscreen, rfl, trivial⟩

theorem poll_spec (t : IdleTracker) (settings : IdleSettings) (idle : Nat) (inhibited locked : Bool) (now : Nat) :
    Polled t settings idle inhibited locked now (t.poll settings idle inhibited locked now) := by
  obtain ⟨t₀, ht₀⟩ : ∃ t₀ : IdleTracker, t₀ = { t.observe locked now with previousIdle := some idle } := ⟨_, rfl⟩
  have hflags : t₀.dimmed = t.dimmed ∧ t₀.screenOff = t.screenOff ∧ t₀.lockAsked = t.lockAsked ∧
      (t₀.lockRetryAt = t.lockRetryAt ∨ locked = true) ∧ t₀.unlockedAt = (t.observe locked now).unlockedAt := by
    subst ht₀
    cases locked <;> cases hwas : t.wasLocked <;> simp [observe, hwas]
  have hmemory : t₀.memory = (some idle, locked, if t.wasLocked && !locked then some now else t.unlockedAt) := by
    subst ht₀
    cases locked <;> cases hwas : t.wasLocked <;> simp [observe, IdleTracker.memory, hwas]
  have hprevious : (t.observe locked now).previousIdle = t.previousIdle := by
    unfold observe
    split_ifs <;> rfl
  obtain ⟨hdims, hscreens, hkept, hquiet⟩ := @extendWake_spec t₀ (t₀, []) rfl rfl
  obtain ⟨hdim, hscreen, hasked, hretry, hunlocked⟩ := hflags
  unfold poll
  simp only [← ht₀, hprevious]
  by_cases hawake : isAwake settings idle inhibited = true
  · simp only [hawake, if_true]
    have hwoken : ∀ s : IdleTracker × List IdleAction, Toggles t₀.dimmed (s.2.filterMap dimKind) s.1.dimmed →
        Toggles t₀.screenOff (s.2.filterMap screenKind) s.1.screenOff → s.1.memory = t₀.memory → s.2.any isLock = false →
        Polled t settings idle inhibited locked now (extendWake s) := fun s hd hs hm hl => by
      obtain ⟨hdims, hscreens, hkept, hquiet⟩ := extendWake_spec hd hs
      exact ⟨hdim ▸ hdims, hscreen ▸ hscreens, hkept.trans (hm.trans hmemory), fun _ => ⟨rfl, rfl⟩, by simp [hquiet, hl, hawake]⟩
    split
    · exact hwoken _ hdims hscreens hkept hquiet
    · exact hwoken _ rfl rfl rfl rfl
  · have hstaged : ∀ (base : IdleTracker) (s : IdleTracker × List IdleAction), Passed False base s → base.dimmed = t.dimmed →
        base.screenOff = t.screenOff → base.memory = t₀.memory →
        (t.previousIdle.any (idle < ·) = false → base.lockAsked = t.lockAsked ∧ base.lockRetryAt = t₀.lockRetryAt) →
        Polled t settings idle inhibited locked now (stages settings idle locked now s) := fun base s h hd hs hm hsame => by
      obtain ⟨hdims, hscreens, hkept, hl⟩ := @Passed.stages _ _ settings idle now locked h
      refine ⟨hd ▸ hdims, hs ▸ hscreens, hkept.trans (hm.trans hmemory), fun h => absurd h hawake, ?_⟩
      have hgrace : base.inUnlockGrace now = (t.observe locked now).inUnlockGrace now := by
        unfold inUnlockGrace
        rw [← hunlocked, show base.unlockedAt = t₀.unlockedAt from congrArg (fun m => m.2.2) hm]
      split at hl
      · rename_i hany
        obtain ⟨⟨hafter, hopen, hnot, hg, hr⟩, hset⟩ := hl
        rw [if_pos hany]
        refine ⟨hafter, hopen, hgrace ▸ hg, fun hfresh => ?_, hset⟩
        obtain ⟨ha, hat⟩ := hsame hfresh
        rw [ha] at hnot
        rw [hat, hretry.resolve_right (by simp [hopen])] at hr
        exact ⟨hnot, hr⟩
      · rename_i hany
        rw [if_neg hany]
        intro hfresh
        obtain ⟨ha, hat⟩ := hsame (Bool.or_eq_false_iff.1 hfresh).1
        exact ⟨hl.1.trans ha, hretry.imp_left (hl.2.trans hat).trans⟩
    rw [if_neg hawake]
    split
    · exact hstaged { t₀ with lockAsked := false, lockRetryAt := none } _ ⟨hdims, hscreens, hkept, by rw [hquiet]; exact ⟨rfl, rfl⟩⟩
        hdim hscreen rfl (by simp_all)
    · exact hstaged t₀ _ ⟨rfl, rfl, rfl, ⟨rfl, rfl⟩⟩ hdim hscreen rfl fun _ => ⟨hasked, rfl⟩

theorem noteLockFailed_memory (t : IdleTracker) (now : Nat) (failure : LockFailure) :
    (t.noteLockFailed now failure).1.memory = t.memory ∧ (t.noteLockFailed now failure).1.dimmed = t.dimmed ∧
      (t.noteLockFailed now failure).1.screenOff = t.screenOff := by
  simp only [noteLockFailed]
  split <;> exact ⟨rfl, rfl, rfl⟩

theorem observe_unlockedAt (t : IdleTracker) (locked : Bool) (now : Nat) :
    (t.observe locked now).unlockedAt = if t.wasLocked && !locked then some now else t.unlockedAt := by
  unfold observe
  split_ifs <;> rfl

/-- An instant that an unlock observed by now follows is out of the grace. -/
theorem le_of_inUnlockGrace {τ a : Nat} (hgrace : t.inUnlockGrace now = false) (ha : t.unlockedAt = some a) (hle : τ ≤ a) :
    τ + unlockGrace ≤ now := by
  have hover : unlockGrace ≤ now - a := by simpa [inUnlockGrace, ha] using hgrace
  unfold unlockGrace at *
  omega

end IdleTracker

/-! ## Histories -/

open IdleTracker

/-- What one poll is given. -/
structure IdleReading where
  settings : IdleSettings
  idle : Nat
  inhibited : Bool
  locked : Bool
  now : Nat

open IdleReading

inductive IdleEntry where
  | poll (r : IdleReading) (actions : List IdleAction)
  | failed (now : Nat) (failure : LockFailure) (failuresInARow : Nat)

def IdleEntry.now : IdleEntry → Nat
  | .poll r _ => r.now
  | .failed now _ _ => now

def IdleEntry.actions : IdleEntry → List IdleAction
  | .poll _ actions => actions
  | .failed _ _ _ => []

def pollAt (t : IdleTracker) (r : IdleReading) : IdleTracker × List IdleAction := t.poll r.settings r.idle r.inhibited r.locked r.now

/-- The histories of a tracker, the newest entry first. A failure is noted right after a poll that asked for the lock. -/
inductive IdleRuns : List IdleEntry → IdleTracker → Prop
  | start : IdleRuns [] {}
  | poll {h : List IdleEntry} {t : IdleTracker} (r : IdleReading) (past : IdleRuns h t) (hnow : ∀ e ∈ h, e.now ≤ r.now) :
      IdleRuns (.poll r (pollAt t r).2 :: h) (pollAt t r).1
  | failed {h : List IdleEntry} {t : IdleTracker} {r : IdleReading} {actions : List IdleAction} (now : Nat) (failure : LockFailure)
      (past : IdleRuns (.poll r actions :: h) t) (hlock : .lock ∈ actions) (hnow : ∀ e ∈ .poll r actions :: h, e.now ≤ now) :
      IdleRuns (.failed now failure (t.noteLockFailed now failure).2 :: .poll r actions :: h) (t.noteLockFailed now failure).1

def lastPoll : List IdleEntry → Option IdleReading
  | [] => none
  | .poll r _ :: _ => some r
  | .failed _ _ _ :: es => lastPoll es

/-- The actions of a history in their order, those of one kind only. -/
def switches (kind : IdleAction → Option Bool) (h : List IdleEntry) : List Bool := (h.reverse.flatMap IdleEntry.actions).filterMap kind

/-- The poll `r` found the session awake, or its idle time gone down, after `before`. -/
def Woken (r : IdleReading) (before : List IdleEntry) : Prop :=
  ((lastPoll before).any (r.idle < ·.idle) || isAwake r.settings r.idle r.inhibited) = true

def Unlocks (r : IdleReading) (before : List IdleEntry) : Prop := ((lastPoll before).any locked && !r.locked) = true

/-- One of the polls since `before` woke. -/
def Wakes (since before : List IdleEntry) : Prop :=
  ∃ mid r actions old, since = mid ++ .poll r actions :: old ∧ Woken r (old ++ before)

/-- Right at the start of `since` a failure was noted at `τ`, that is retried. -/
def Retried (since : List IdleEntry) (τ : Nat) : Prop :=
  ∃ rest failure failures, since = rest ++ [.failed τ failure failures] ∧ lockFailureRetries failure failures = true

theorem Wakes.cons {since before : List IdleEntry} (h : Wakes since before) (e : IdleEntry) : Wakes (e :: since) before := by
  obtain ⟨mid, r, actions, old, rfl, hw⟩ := h
  exact ⟨e :: mid, r, actions, old, rfl, hw⟩

theorem Retried.cons {since : List IdleEntry} {τ : Nat} (h : Retried since τ) (e : IdleEntry) : Retried (e :: since) τ := by
  obtain ⟨rest, failure, failures, rfl, hr⟩ := h
  exact ⟨e :: rest, failure, failures, rfl, hr⟩

theorem any_isLock {actions : List IdleAction} : actions.any isLock = true ↔ .lock ∈ actions := by
  rw [List.any_eq_true]
  constructor
  · rintro ⟨a, ha, h⟩
    cases a <;> simp_all [isLock]
  · exact fun h => ⟨_, h, rfl⟩

theorem IdleTracker.Toggles.isChain {a b : Bool} {xs : List Bool} (h : Toggles a xs b) : (a :: xs).IsChain (· ≠ ·) ∧ b = xs.getLastD a := by
  induction xs generalizing a with
  | nil => exact ⟨.singleton a, h⟩
  | cons x xs ih =>
    obtain ⟨hchain, hlast⟩ := ih h.2
    refine ⟨List.isChain_cons_cons.2 ⟨?_, hchain⟩, hlast.trans List.getLastD_cons.symm⟩
    rw [h.1]
    simp

section

variable {h : List IdleEntry} {t : IdleTracker} (hruns : IdleRuns h t)
include hruns

theorem IdleRuns.memory : t.previousIdle = (lastPoll h).map idle ∧ t.wasLocked = (lastPoll h).any locked := by
  induction hruns with
  | start => exact ⟨rfl, rfl⟩
  | @poll h t r =>
    have hm := (poll_spec t r.settings r.idle r.inhibited r.locked r.now).memory
    exact ⟨congrArg Prod.fst hm, (congrArg (·.2.1) hm).trans rfl⟩
  | @failed h t _ _ now failure past _ _ ih =>
    have hm := (noteLockFailed_memory t now failure).1
    exact ⟨(congrArg Prod.fst hm).trans ih.1, (congrArg (·.2.1) hm).trans ih.2⟩

theorem IdleRuns.switches : Toggles false (switches dimKind h) t.dimmed ∧ Toggles false (switches screenKind h) t.screenOff := by
  induction hruns with
  | start => exact ⟨rfl, rfl⟩
  | @poll h t r _ _ ih =>
    have hs := poll_spec t r.settings r.idle r.inhibited r.locked r.now
    simp only [Jwm.Features.switches, List.reverse_cons, List.flatMap_append, List.filterMap_append, List.flatMap_singleton] at ih ⊢
    exact ⟨ih.1.append hs.dims, ih.2.append hs.screens⟩
  | @failed h t _ _ now failure past _ _ ih =>
    obtain ⟨-, hdim, hscreen⟩ := noteLockFailed_memory t now failure
    simp only [Jwm.Features.switches, List.reverse_cons, List.flatMap_append, List.filterMap_append, List.flatMap_singleton,
      IdleEntry.actions, List.append_nil] at ih ⊢
    rw [hdim, hscreen]
    exact ih

/-- Every unlock observed is remembered, or a later one is. -/
theorem IdleRuns.unlocked {mid before : List IdleEntry} {u : IdleReading} {us : List IdleAction} (hsplit : h = mid ++ .poll u us :: before)
    (hu : Unlocks u before) : ∃ a, t.unlockedAt = some a ∧ u.now ≤ a := by
  induction hruns generalizing mid with
  | start => simp at hsplit
  | @poll h t r past hnow ih =>
    have hm := congrArg (·.2.2) (poll_spec t r.settings r.idle r.inhibited r.locked r.now).memory
    change (pollAt t r).1.unlockedAt = _ at hm
    rw [hm, past.memory.2]
    rcases List.cons_eq_append_iff.1 hsplit with ⟨rfl, heq⟩ | ⟨mid', rfl, rfl⟩
    · simp only [List.cons.injEq, IdleEntry.poll.injEq] at heq
      obtain ⟨⟨rfl, rfl⟩, rfl⟩ := heq
      exact ⟨_, if_pos (show ((lastPoll before).any locked && !u.locked) = true from hu), Nat.le_refl u.now⟩
    · split
      · exact ⟨_, rfl, hnow (.poll u us) (by simp)⟩
      · exact ih rfl
  | @failed h t _ _ now failure past _ _ ih =>
    rw [show (t.noteLockFailed now failure).1.unlockedAt = t.unlockedAt from congrArg (·.2.2) (noteLockFailed_memory t now failure).1]
    rcases List.cons_eq_append_iff.1 hsplit with ⟨rfl, heq⟩ | ⟨mid', rfl, heq⟩
    · simp at heq
    · exact ih heq

end

/-- After a failure at `τ` that is retried: what keeps the next lock away from it. -/
def Held (t : IdleTracker) (τ : Nat) : Prop :=
  t.lockAsked = true ∨ (∃ at_, t.lockRetryAt = some at_ ∧ τ + lockRetryInterval ≤ at_) ∨ t.wasLocked = true ∨
    ∃ at_, t.unlockedAt = some at_ ∧ τ ≤ at_

/-- What a tracker remembers of an earlier lock asked for, right after which `since` begins. -/
def Remembered (t : IdleTracker) (since before : List IdleEntry) : Prop :=
  Wakes since before ∨ (∃ τ, Retried since τ ∧ Held t τ) ∨ t.lockAsked = true ∧ ∀ e ∈ since, .lock ∉ e.actions

section

variable {h : List IdleEntry} {t : IdleTracker} (hruns : IdleRuns h t)
include hruns

/-- A poll asks for the lock when it is due, once. -/
theorem IdleRuns.locks {r : IdleReading} (hlock : .lock ∈ (pollAt t r).2) (hnow : ∀ e ∈ h, e.now ≤ r.now) :
    (pollAt t r).2.countP isLock = 1 ∧ r.locked = false ∧ (∃ after, r.settings.lockAfter = some after ∧ after ≤ r.idle) ∧
      ∀ mid u us before, .poll r (pollAt t r).2 :: h = mid ++ .poll u us :: before → Unlocks u before → u.now + unlockGrace ≤ r.now := by
  have hs := poll_spec t r.settings r.idle r.inhibited r.locked r.now
  have hl := hs.lock
  change if (pollAt t r).2.any isLock then _ else _ at hl
  rw [if_pos (any_isLock.2 hlock)] at hl
  obtain ⟨hafter, hopen, hgrace, -, -, hone⟩ := hl
  refine ⟨hone, hopen, hafter, fun mid u us before hsplit hu => ?_⟩
  obtain ⟨a, ha, hle⟩ := (hruns.poll r hnow).unlocked hsplit hu
  refine le_of_inUnlockGrace hgrace (a := a) (Eq.trans ?_ ha) hle
  rw [observe_unlockedAt]
  exact (congrArg (·.2.2) hs.memory).symm

/-- A poll that does not wake asks for no lock where one is still remembered. -/
theorem Remembered.asks {since before : List IdleEntry} (hm : Remembered t since before) (hsplit : h = since ++ before) {r : IdleReading}
    (hlock : .lock ∈ (pollAt t r).2) (hnow : ∀ e ∈ h, e.now ≤ r.now) :
    Wakes (.poll r (pollAt t r).2 :: since) before ∨ ∃ τ, Retried since τ ∧ τ + lockRetryInterval ≤ r.now := by
  rcases hm with hw | hm
  · exact .inl (hw.cons _)
  by_cases hwoken : Woken r (since ++ before)
  · exact .inl ⟨[], r, _, since, rfl, hwoken⟩
  have hl := (poll_spec t r.settings r.idle r.inhibited r.locked r.now).lock
  change if (pollAt t r).2.any isLock then _ else _ at hl
  rw [if_pos (any_isLock.2 hlock)] at hl
  obtain ⟨-, hopen, hgrace, hfresh, -⟩ := hl
  have hsame : t.previousIdle.any (r.idle < ·) = false := by
    rw [hruns.memory.1, hsplit]
    simp only [Woken, Bool.or_eq_true, not_or] at hwoken
    cases hlast : lastPoll (since ++ before) <;> simp_all
  obtain ⟨hasked, hretry⟩ := hfresh hsame
  rcases hm with ⟨τ, hretried, hheld⟩ | ⟨h', -⟩
  · refine .inr ⟨τ, hretried, ?_⟩
    obtain ⟨hτ, -⟩ : τ ≤ r.now ∧ True := by
      obtain ⟨rest, failure, failures, rfl, -⟩ := hretried
      exact ⟨hnow (.failed τ failure failures) (by simp [hsplit]), trivial⟩
    -- Past the grace of an unlock after the failure, the interval is over as well.
    have hgraced : ∀ at_, (t.observe r.locked r.now).unlockedAt = some at_ → τ ≤ at_ → τ + lockRetryInterval ≤ r.now :=
      fun at_ hat hle => by
        have := le_of_inUnlockGrace hgrace hat hle
        unfold unlockGrace lockRetryInterval at *
        omega
    rw [observe_unlockedAt, hopen] at hgraced
    rcases hheld with h' | ⟨at_, hat, hle⟩ | hwas | ⟨at_, hat, hle⟩
    · simp [hasked] at h'
    · rw [hat] at hretry
      exact Nat.le_trans hle (by simpa using hretry)
    · exact hgraced r.now (by simp [hwas]) hτ
    · cases hwas : t.wasLocked with
      | true => exact hgraced r.now (by simp [hwas]) hτ
      | false => exact hgraced at_ (by simpa [hwas] using hat) hle
  · simp [hasked] at h'

theorem IdleRuns.remembered {since before : List IdleEntry} {r : IdleReading} {actions : List IdleAction}
    (hsplit : h = since ++ .poll r actions :: before) (hlock : .lock ∈ actions) : Remembered t since (.poll r actions :: before) := by
  induction hruns generalizing since with
  | start => simp at hsplit
  | @poll h t u past hnow ih =>
    have hs := poll_spec t u.settings u.idle u.inhibited u.locked u.now
    have hl := hs.lock
    change if (pollAt t u).2.any isLock then _ else _ at hl
    rcases List.cons_eq_append_iff.1 hsplit with ⟨rfl, heq⟩ | ⟨since', rfl, heq⟩
    · simp only [List.cons.injEq, IdleEntry.poll.injEq] at heq
      obtain ⟨⟨rfl, rfl⟩, rfl⟩ := heq
      rw [if_pos (any_isLock.2 hlock)] at hl
      exact .inr (.inr ⟨hl.2.2.2.2.1, by simp⟩)
    · have hpast := ih heq
      by_cases hasks : .lock ∈ (pollAt t u).2
      · rw [if_pos (any_isLock.2 hasks)] at hl
        exact (hpast.asks past heq hasks hnow).imp_right fun ⟨τ, hretried, _⟩ => .inl ⟨τ, hretried.cons _, .inl hl.2.2.2.2.1⟩
      rw [if_neg (mt any_isLock.1 hasks)] at hl
      by_cases hwoken : Woken u (since' ++ .poll r actions :: before)
      · exact .inl ⟨[], u, _, since', rfl, hwoken⟩
      have hquiet : (t.previousIdle.any (u.idle < ·) || isAwake u.settings u.idle u.inhibited) = false := by
        rw [past.memory.1, heq]
        simp only [Woken, Bool.or_eq_true, not_or] at hwoken
        cases hlast : lastPoll (since' ++ .poll r actions :: before) <;> simp_all
      obtain ⟨hasked, hretry⟩ := hl hquiet
      have hmemory := hs.memory
      rcases hpast with hw | ⟨τ, hretried, hheld⟩ | ⟨h', hnone⟩
      · exact .inl (hw.cons _)
      · refine .inr (.inl ⟨τ, hretried.cons _, ?_⟩)
        have hτ : τ ≤ u.now := by
          obtain ⟨rest, failure, failures, rfl, -⟩ := hretried
          exact hnow (.failed τ failure failures) (by simp [heq])
        have hwas' : (pollAt t u).1.wasLocked = u.locked := congrArg (·.2.1) hmemory
        have hunlocked : (pollAt t u).1.unlockedAt = if t.wasLocked && !u.locked then some u.now else t.unlockedAt :=
          congrArg (·.2.2) hmemory
        cases hlocked : u.locked with
        | true => exact .inr (.inr (.inl (hwas'.trans hlocked)))
        | false =>
          rcases hheld with h' | ⟨at_, hat, hle⟩ | hwas | ⟨at_, hat, hle⟩
          · exact .inl (hasked.trans h')
          · exact .inr (.inl ⟨at_, (hretry.resolve_right (by simp [hlocked])).trans hat, hle⟩)
          · exact .inr (.inr (.inr ⟨u.now, by simpa [hwas, hlocked] using hunlocked, hτ⟩))
          · cases hwas : t.wasLocked with
            | true => exact .inr (.inr (.inr ⟨u.now, by simpa [hwas, hlocked] using hunlocked, hτ⟩))
            | false => exact .inr (.inr (.inr ⟨at_, by simpa [hwas, hlocked, hat] using hunlocked, hle⟩))
      · exact .inr (.inr ⟨hasked.trans h', List.forall_mem_cons.2 ⟨hasks, hnone⟩⟩)
  | @failed h t u us now failure past hasked hnow ih =>
    have hnoted : ∀ τ ≤ now, Held (t.noteLockFailed now failure).1 τ := fun τ hτ => by
      simp only [Held, noteLockFailed]
      split
      · exact .inr (.inl ⟨_, rfl, Nat.add_le_add_right hτ _⟩)
      · exact .inl rfl
    rcases List.cons_eq_append_iff.1 hsplit with ⟨rfl, heq⟩ | ⟨since', rfl, heq⟩
    · simp at heq
    · rcases ih heq with hw | ⟨τ, hretried, -⟩ | ⟨h', hnone⟩
      · exact .inl (hw.cons _)
      · have hτ : τ ≤ now := by
          obtain ⟨rest, failure', failures, rfl, -⟩ := hretried
          exact hnow (.failed τ failure' failures) (by simp [heq])
        exact .inr (.inl ⟨τ, hretried.cons _, hnoted τ hτ⟩)
      · -- Only the lock asked for last can have been noted as failed.
        rcases List.cons_eq_append_iff.1 heq with ⟨rfl, -⟩ | ⟨since'', rfl, -⟩
        · by_cases hretries : lockFailureRetries failure (t.noteLockFailed now failure).2 = true
          · exact .inr (.inl ⟨now, ⟨[], failure, _, rfl, hretries⟩, hnoted now (Nat.le_refl now)⟩)
          · refine .inr (.inr ⟨?_, by simp [IdleEntry.actions]⟩)
            simp only [noteLockFailed] at hretries ⊢
            rw [if_neg hretries]
        · exact absurd hasked (hnone _ List.mem_cons_self)

end

theorem IdleRuns.suffix {h after before : List IdleEntry} {t : IdleTracker} (hruns : IdleRuns h t) (hsplit : h = after ++ before) :
    ∃ t', IdleRuns before t' := by
  induction hruns generalizing after with
  | start => exact ⟨{}, (List.append_eq_nil_iff.1 hsplit.symm).2 ▸ .start⟩
  | poll r past hnow ih =>
    rcases List.cons_eq_append_iff.1 hsplit with ⟨-, rfl⟩ | ⟨after', -, heq⟩
    · exact ⟨_, past.poll r hnow⟩
    · exact ih heq
  | failed now failure past hlock hnow ih =>
    rcases List.cons_eq_append_iff.1 hsplit with ⟨-, rfl⟩ | ⟨after', -, heq⟩
    · exact ⟨_, past.failed now failure hlock hnow⟩
    · exact ih heq

/-- In every history of polls, with failures noted right after the polls they are of: dims and undims alternate, screens go
off and on in turns, and the flags say which was last; the lock is asked for only where the session is open, idle for long
enough and out of every grace, and again only after a poll woke or a failure that is to be retried was noted. -/
theorem idle_policy_undoes {h : List IdleEntry} {t : IdleTracker} (hruns : IdleRuns h t) :
    ((false :: switches dimKind h).IsChain (· ≠ ·) ∧ t.dimmed = (switches dimKind h).getLastD false) ∧
    ((false :: switches screenKind h).IsChain (· ≠ ·) ∧ t.screenOff = (switches screenKind h).getLastD false) ∧
    (∀ r actions before, h = .poll r actions :: before → isAwake r.settings r.idle r.inhibited = true →
      t.dimmed = false ∧ t.screenOff = false) ∧
    (∀ after r actions before, h = after ++ .poll r actions :: before → .lock ∈ actions →
      actions.countP isLock = 1 ∧ r.locked = false ∧ (∃ lockAfter, r.settings.lockAfter = some lockAfter ∧ lockAfter ≤ r.idle) ∧
      ∀ mid u us old, .poll r actions :: before = mid ++ .poll u us :: old → Unlocks u old → u.now + unlockGrace ≤ r.now) ∧
    ∀ after r actions since u us before, h = after ++ .poll r actions :: (since ++ .poll u us :: before) → .lock ∈ us → .lock ∈ actions →
      Wakes (.poll r actions :: since) (.poll u us :: before) ∨ ∃ τ, Retried since τ ∧ τ + lockRetryInterval ≤ r.now := by
  refine ⟨hruns.switches.1.isChain, hruns.switches.2.isChain, ?_, ?_, ?_⟩
  · rintro r actions before rfl hawake
    cases hruns with
    | @poll _ t => exact (poll_spec t r.settings r.idle r.inhibited r.locked r.now).awake hawake
  · rintro after r actions before rfl hlock
    obtain ⟨t', hruns'⟩ := hruns.suffix rfl
    cases hruns' with
    | poll _ past hnow => exact past.locks hlock hnow
  · rintro after r actions since u us before rfl hfirst hlock
    obtain ⟨t', hruns'⟩ := hruns.suffix rfl
    cases hruns' with
    | poll _ past hnow => exact (past.remembered rfl hfirst).asks past rfl hlock hnow

namespace Sample

def first : IdleReading := ⟨⟨some 5, 0.5, some 10, none⟩, 20, false, false, 0⟩

def again : IdleReading := { first with now := 6000000000 }

def active : IdleReading := { first with idle := 0, now := 7000000000 }

/-- The lock asked for at first could not be started. -/
def unlockedTracker : IdleTracker := ((pollAt {} first).1.noteLockFailed 1 .transient).1

theorem again_runs : IdleRuns [.poll again [.lock], .failed 1 .transient 1, .poll first [.dim 0.5, .lock]] (pollAt unlockedTracker again).1 :=
  ((IdleRuns.start.poll first (by simp)).failed 1 .transient (.tail _ (.head _)) (by simp [IdleEntry.now, first])).poll again
    (by simp [IdleEntry.now, first, again])

end Sample

open Sample

/-- A lock that failed is asked for again; at last the screen is undimmed. -/
theorem idle_policy_undoes_sample :
    (∃ τ, Retried [.failed 1 .transient 1] τ ∧ τ + lockRetryInterval ≤ Sample.again.now) ∧
      (pollAt (pollAt Sample.unlockedTracker Sample.again).1 Sample.active).1.dimmed = false := by
  have hactive := again_runs.poll active (by simp [IdleEntry.now, first, again, active])
  refine ⟨?_, ((idle_policy_undoes hactive).2.2.1 _ _ _ rfl (by decide)).1⟩
  refine ((idle_policy_undoes again_runs).2.2.2.2 [] _ _ [.failed 1 .transient 1] _ _ [] rfl (.tail _ (.head _)) (.head _)).resolve_left ?_
  rintro ⟨mid, r, actions, old, hsplit, hwoken⟩
  rcases mid with _ | ⟨e, _ | ⟨e', mid⟩⟩
  · cases hsplit
    exact absurd hwoken Bool.false_ne_true
  · cases hsplit
  · simp at hsplit

end Jwm.Features
