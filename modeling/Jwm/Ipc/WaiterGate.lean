/-
The sequence/waiter handshake of `shared_structures/src/backends` (`WaiterGate`, the futex wait loop and
`signal_message`/`wake_all`), one shared access a step: a signaller publishes, advances the sequence and looks for waiters;
the waiter takes a snapshot, registers, and looks for data and for a changed sequence before it sleeps.
-/
import Jwm.Data.Run
import Mathlib.Algebra.Ring.Int.Defs

namespace Jwm.Ipc

/-! ## Programs -/

/-- What the waiter does once its registration is dropped. -/
inductive AfterDrop where
  | ready
  | retry
  | waited (failed : Bool)
deriving DecidableEq

/-- The next access of `wait_on_futex`. -/
inductive WaiterPc where
  | returned (answer : Except String Bool)
  | spinning (left : Nat)
  | precheck
  | top
  | deadline
  | loadSequence
  | loadWaiters (snapshot : BitVec 32)
  | exchange (snapshot : BitVec 32) (waiters : Int)
  | recheckData (snapshot : BitVec 32)
  | recheckSequence (snapshot : BitVec 32)
  | futexWait (snapshot : BitVec 32)
  | asleep
  | drop (next : AfterDrop)
  | woken (failed : Bool)

namespace WaiterPc

def registrations : WaiterPc → Int
  | recheckData _ | recheckSequence _ | futexWait _ | asleep | drop _ => 1
  | _ => 0

def snapshot : WaiterPc → Option (BitVec 32)
  | loadWaiters s | exchange s _ | recheckData s | recheckSequence s | futexWait s => some s
  | _ => none

def atFutexWait : WaiterPc → Bool
  | futexWait _ => true
  | _ => false

def sawNone : WaiterPc → Bool
  | recheckSequence _ | futexWait _ | asleep => true
  | _ => false

end WaiterPc

/-- The next access of a signaller; `all` for a broadcast. -/
inductive SignalPc where
  | finished
  | advance (all : Bool)
  | loadWaiters (all : Bool)
  | wake
deriving DecidableEq

/-- `made`: it made `has_data` true, and that has been so ever since. -/
structure Signaller where
  pc : SignalPc
  made : Bool

/-- A futex channel with its waiter and any number of signallers. `advances` counts the advances of the
sequence, and `snapshotAt` is that count at the waiter's last snapshot. -/
structure Gate (ι : Type) where
  sequence : BitVec 32
  waiters : Int
  data : Bool
  destroyed : Bool
  waiter : WaiterPc
  signallers : ι → Signaller
  advances : Nat
  snapshotAt : Nat

inductive GateEvent (ι : Type) where
  /-- The waiter calls `wait_on_futex`. -/
  | call (spins : Nat)
  /-- Its next access; with `chance` the time is up, the weak exchange fails, or the kernel reports an error. -/
  | waiter (chance : Bool)
  /-- Its sleep ends without a wake: a signal, the timeout, or an error. -/
  | interrupt (failed : Bool)
  /-- A signaller makes `has_data` true, as a message or by the destroyed flag. -/
  | publish (i : ι) (destroy all : Bool)
  /-- Its next access. -/
  | signaller (i : ι)
  /-- The data is consumed. -/
  | consume

namespace Gate

variable {ι : Type}

def new (data destroyed : Bool) : Gate ι where
  sequence := 0
  waiters := 0
  data := data
  destroyed := destroyed
  waiter := .returned (.ok false)
  signallers := fun _ => ⟨.finished, false⟩
  advances := 0
  snapshotAt := 0

def hasData (g : Gate ι) : Bool := g.data || g.destroyed

def i32Max : Int := 2 ^ 31 - 1

/-- `wait_on_futex` and `WaiterGate::register`. -/
def stepWaiter (g : Gate ι) (chance : Bool) : Gate ι :=
  match g.waiter with
  | .returned _ | .asleep => g
  | .spinning 0 => { g with waiter := .precheck }
  | .spinning (left + 1) =>
    if g.hasData then { g with waiter := .returned (.ok true) }
    else if chance then { g with waiter := .precheck }
    else { g with waiter := .spinning left }
  | .precheck => { g with waiter := if g.hasData then .returned (.ok true) else .top }
  | .top => { g with waiter := if g.hasData then .returned (.ok true) else .deadline }
  | .deadline => { g with waiter := if chance then .returned (.ok false) else .loadSequence }
  | .loadSequence => { g with waiter := .loadWaiters g.sequence, snapshotAt := g.advances }
  | .loadWaiters snapshot => { g with waiter := .exchange snapshot g.waiters }
  | .exchange snapshot waiters =>
    if waiters < 0 ∨ waiters = i32Max then
      { g with waiter := .returned (.error ("invalid shared waiter count: " ++ toString waiters)) }
    else if g.waiters = waiters ∧ chance = false then { g with waiters := waiters + 1, waiter := .recheckData snapshot }
    else { g with waiter := .exchange snapshot g.waiters }
  | .recheckData snapshot => { g with waiter := if g.hasData then .drop .ready else .recheckSequence snapshot }
  | .recheckSequence snapshot => { g with waiter := if g.sequence ≠ snapshot then .drop .retry else .futexWait snapshot }
  | .futexWait snapshot =>
    -- the kernel compares and sleeps in one step
    if chance then { g with waiter := .drop (.waited true) }
    else { g with waiter := if g.sequence = snapshot then .asleep else .drop (.waited false) }
  | .drop next =>
    { g with
      waiters := g.waiters - 1
      waiter := match next with
        | .ready => .returned (.ok true)
        | .retry => .top
        | .waited failed => .woken failed }
  | .woken failed =>
    { g with waiter := if failed then .returned (.ok g.hasData) else if g.hasData then .returned (.ok true) else .top }

section Steps

variable [DecidableEq ι]

def setSignaller (g : Gate ι) (i : ι) (s : Signaller) : Gate ι := { g with signallers := Function.update g.signallers i s }

/-- `WaiterGate::signal` or `broadcast_count`, and the wake. -/
def stepSignaller (g : Gate ι) (i : ι) : Gate ι :=
  let s := g.signallers i
  match s.pc with
  | .finished => g
  | .advance all =>
    { g with sequence := g.sequence + 1, advances := g.advances + 1 }.setSignaller i { s with pc := .loadWaiters all }
  | .loadWaiters all => g.setSignaller i { s with pc := if all ∨ g.waiters > 0 then .wake else .finished }
  | .wake =>
    let g := g.setSignaller i { s with pc := .finished }
    match g.waiter with
    | .asleep => { g with waiter := .drop (.waited false) }
    | _ => g

def step (g : Gate ι) : GateEvent ι → Gate ι × Unit
  | .call spins =>
    (match g.waiter with
      | .returned _ => { g with waiter := .spinning spins }
      | _ => g, ())
  | .waiter chance => (g.stepWaiter chance, ())
  | .interrupt failed =>
    (match g.waiter with
      | .asleep => { g with waiter := .drop (.waited failed) }
      | _ => g, ())
  | .publish i destroy all =>
    (match (g.signallers i).pc with
      | .finished =>
        { g with data := g.data || !destroy, destroyed := g.destroyed || destroy }.setSignaller i ⟨.advance all, true⟩
      | _ => g, ())
  | .signaller i => (g.stepSignaller i, ())
  | .consume =>
    (if g.destroyed then { g with data := false }
      else { g with data := false, signallers := fun i => { g.signallers i with made := false } }, ())

end Steps

/-! ## The handshake -/

/-- Fewer than `2 ^ 32` signals between the waiter's snapshot and its sleep. -/
def FewSignals (g : Gate ι) : GateEvent ι → Prop
  | .waiter _ => g.waiter.atFutexWait = true → g.advances - g.snapshotAt < 2 ^ 32
  | _ => True

instance (g : Gate ι) : ∀ e : GateEvent ι, Decidable (g.FewSignals e)
  | .waiter _ => inferInstanceAs (Decidable (g.waiter.atFutexWait = true → g.advances - g.snapshotAt < 2 ^ 32))
  | .call _ | .interrupt _ | .publish .. | .signaller _ | .consume => isTrue trivial

/-- The registrations are counted, the snapshot is the sequence of its time, and once the waiter saw no
data, whoever made it true since has not advanced the sequence without being noticed. -/
structure Handshake (g : Gate ι) : Prop where
  sequence : g.sequence = BitVec.ofNat 32 g.advances
  waiters : g.waiters = g.waiter.registrations
  snapshot : ∀ s ∈ g.waiter.snapshot, s = BitVec.ofNat 32 g.snapshotAt
  snapshotAt : g.snapshotAt ≤ g.advances
  made : ∀ i, (g.signallers i).made = true → g.hasData = true
  maker : g.waiter.sawNone = true → g.hasData = true → ∃ i, (g.signallers i).made = true
  advanced : g.waiter.sawNone = true → ∀ i, (g.signallers i).made = true →
    (∃ all, (g.signallers i).pc = .advance all) ∨ g.snapshotAt < g.advances
  asleep : g.waiter = .asleep → ∀ i, (g.signallers i).made = true → (g.signallers i).pc ≠ .finished

theorem Handshake.new (data destroyed : Bool) : Handshake (new data destroyed : Gate ι) := by
  refine ⟨rfl, rfl, nofun, Nat.le_refl _, nofun, nofun, nofun, nofun⟩

variable {g : Gate ι}

/-- The waiter goes on to an access that does not build on having seen no data. -/
theorem Handshake.moved (h : Handshake g) {waiter : WaiterPc} {waiters : Int} (hwaiters : waiters = waiter.registrations)
    (hsnapshot : ∀ s ∈ waiter.snapshot, s = BitVec.ofNat 32 g.snapshotAt) (hsaw : waiter.sawNone = false) :
    Handshake { g with waiter := waiter, waiters := waiters } := by
  refine ⟨h.sequence, hwaiters, hsnapshot, h.snapshotAt, h.made, ?_, ?_, ?_⟩
  · intro hs
    rw [show waiter.sawNone = true from hs] at hsaw
    cases hsaw
  · intro hs
    rw [show waiter.sawNone = true from hs] at hsaw
    cases hsaw
  · rintro rfl
    cases hsaw

theorem advances_eq_of_sequence {advances snapshotAt : Nat} (hle : snapshotAt ≤ advances) (hfew : advances - snapshotAt < 2 ^ 32)
    (h : BitVec.ofNat 32 advances = BitVec.ofNat 32 snapshotAt) : advances = snapshotAt := by
  have hmod : advances % 2 ^ 32 = snapshotAt % 2 ^ 32 := by
    have := congrArg BitVec.toNat h
    rwa [BitVec.toNat_ofNat, BitVec.toNat_ofNat] at this
  omega

theorem Handshake.stepWaiter (h : Handshake g) {chance : Bool} (hfew : g.FewSignals (.waiter chance)) :
    Handshake (g.stepWaiter chance) := by
  have hregistrations := h.waiters
  have hsnapshot := h.snapshot
  cases hpc : g.waiter with
  | returned answer | asleep =>
    simp only [Gate.stepWaiter, hpc]
    exact h
  | spinning left =>
    rw [hpc] at hregistrations
    cases left with
    | zero =>
      simp only [Gate.stepWaiter, hpc]
      exact h.moved hregistrations nofun rfl
    | succ left =>
      simp only [Gate.stepWaiter, hpc]
      split
      · exact h.moved hregistrations nofun rfl
      · split
        · exact h.moved hregistrations nofun rfl
        · exact h.moved hregistrations nofun rfl
  | precheck | top | deadline =>
    rw [hpc] at hregistrations
    simp only [Gate.stepWaiter, hpc]
    split
    · exact h.moved hregistrations nofun rfl
    · exact h.moved hregistrations nofun rfl
  | loadSequence =>
    rw [hpc] at hregistrations
    simp only [Gate.stepWaiter, hpc]
    refine ⟨h.sequence, hregistrations, ?_, Nat.le_refl _, h.made, nofun, nofun, nofun⟩
    rintro s hs
    obtain rfl := Option.some.inj hs
    exact h.sequence
  | loadWaiters snapshot =>
    rw [hpc] at hregistrations hsnapshot
    simp only [Gate.stepWaiter, hpc]
    exact h.moved hregistrations hsnapshot rfl
  | exchange snapshot waiters =>
    rw [hpc] at hregistrations hsnapshot
    simp only [Gate.stepWaiter, hpc]
    split
    · exact h.moved hregistrations nofun rfl
    · split
      · rename_i hequal
        refine h.moved ?_ hsnapshot rfl
        rw [← hequal.1, hregistrations]
        rfl
      · exact h.moved hregistrations hsnapshot rfl
  | recheckData snapshot =>
    rw [hpc] at hregistrations hsnapshot
    simp only [Gate.stepWaiter, hpc]
    split
    · exact h.moved hregistrations nofun rfl
    · -- nobody made it true yet
      rename_i hnone
      refine ⟨h.sequence, hregistrations, hsnapshot, h.snapshotAt, h.made, fun _ hdata => absurd hdata hnone,
        fun _ i hi => absurd (h.made i hi) hnone, nofun⟩
  | recheckSequence snapshot =>
    rw [hpc] at hregistrations hsnapshot
    have hmaker := h.maker (by rw [hpc]; rfl)
    have hadvanced := h.advanced (by rw [hpc]; rfl)
    simp only [Gate.stepWaiter, hpc]
    split
    · exact h.moved hregistrations nofun rfl
    · exact ⟨h.sequence, hregistrations, hsnapshot, h.snapshotAt, h.made, fun _ => hmaker, fun _ => hadvanced, nofun⟩
  | futexWait snapshot =>
    rw [hpc] at hregistrations hsnapshot
    have hmaker := h.maker (by rw [hpc]; rfl)
    have hadvanced := h.advanced (by rw [hpc]; rfl)
    simp only [Gate.stepWaiter, hpc]
    split
    · exact h.moved hregistrations nofun rfl
    · split
      · -- the sequence did not change, so whoever made it true has yet to advance it
        rename_i hequal
        have hsame : g.advances = g.snapshotAt := by
          refine advances_eq_of_sequence h.snapshotAt (hfew (by rw [hpc]; rfl)) ?_
          rw [← h.sequence, hequal]
          exact hsnapshot snapshot rfl
        refine ⟨h.sequence, hregistrations, nofun, h.snapshotAt, h.made, fun _ => hmaker, fun _ => hadvanced, fun _ i hi => ?_⟩
        rcases hadvanced i hi with ⟨all, hpci⟩ | hlt
        · rw [hpci]
          exact nofun
        · omega
      · exact h.moved hregistrations nofun rfl
  | drop next =>
    rw [hpc] at hregistrations
    simp only [Gate.stepWaiter, hpc]
    cases next <;> exact h.moved (by rw [hregistrations]; rfl) nofun rfl
  | woken failed =>
    rw [hpc] at hregistrations
    simp only [Gate.stepWaiter, hpc]
    split
    · exact h.moved hregistrations nofun rfl
    · split
      · exact h.moved hregistrations nofun rfl
      · exact h.moved hregistrations nofun rfl

theorem Handshake.roused (h : Handshake g) (hasleep : g.waiter = .asleep) (failed : Bool) :
    Handshake { g with waiter := .drop (.waited failed) } := by
  have hregistrations := h.waiters
  rw [hasleep] at hregistrations
  exact h.moved hregistrations nofun rfl

theorem Handshake.consume (h : Handshake g) : Handshake (if g.destroyed then { g with data := false }
    else { g with data := false, signallers := fun i => { g.signallers i with made := false } }) := by
  split
  · -- the destroyed flag stays
    rename_i hdestroyed
    have hdata : g.hasData = true := by simp [hasData, hdestroyed]
    have hdata' : Gate.hasData { g with data := false } = true := by simp [hasData, hdestroyed]
    exact ⟨h.sequence, h.waiters, h.snapshot, h.snapshotAt, fun _ _ => hdata', fun hs _ => h.maker hs hdata, h.advanced, h.asleep⟩
  · rename_i hdestroyed
    have hnone : Gate.hasData { g with data := false, signallers := fun i => { g.signallers i with made := false } } = false := by
      simp [hasData, hdestroyed]
    refine ⟨h.sequence, h.waiters, h.snapshot, h.snapshotAt, nofun, fun _ hdata => ?_, fun _ _ => nofun, fun _ _ => nofun⟩
    rw [hnone] at hdata
    cases hdata

variable [DecidableEq ι]

theorem setSignaller_self (g : Gate ι) (i : ι) (s : Signaller) : (g.setSignaller i s).signallers i = s := Function.update_self ..

theorem setSignaller_of_ne (g : Gate ι) {i j : ι} (hne : j ≠ i) (s : Signaller) :
    (g.setSignaller i s).signallers j = g.signallers j := Function.update_of_ne hne ..

/-- A signaller goes on. If the waiter is asleep it is not finished, unless it did not make the data. -/
theorem Handshake.setSignaller (h : Handshake g) {i : ι} {s : Signaller} (hmade : s.made = true → g.hasData = true)
    (hmaker : (g.signallers i).made = true → s.made = true)
    (hadvanced : g.waiter.sawNone = true → s.made = true → (∃ all, s.pc = .advance all) ∨ g.snapshotAt < g.advances)
    (hasleep : g.waiter = .asleep → s.made = true → s.pc ≠ .finished) : Handshake (g.setSignaller i s) := by
  refine ⟨h.sequence, h.waiters, h.snapshot, h.snapshotAt, fun j => ?_, fun hs hdata => ?_, fun hs j => ?_, fun hs j => ?_⟩
  · by_cases hj : j = i
    · subst hj
      rw [setSignaller_self]
      exact hmade
    · rw [setSignaller_of_ne g hj]
      exact h.made j
  · obtain ⟨j, hj⟩ := h.maker hs hdata
    by_cases hji : j = i
    · subst hji
      exact ⟨j, by rw [setSignaller_self]; exact hmaker hj⟩
    · exact ⟨j, by rw [setSignaller_of_ne g hji]; exact hj⟩
  · by_cases hj : j = i
    · subst hj
      rw [setSignaller_self]
      exact hadvanced hs
    · rw [setSignaller_of_ne g hj]
      exact h.advanced hs j
  · by_cases hj : j = i
    · subst hj
      rw [setSignaller_self]
      exact hasleep hs
    · rw [setSignaller_of_ne g hj]
      exact h.asleep hs j

theorem Handshake.publish (h : Handshake g) (i : ι) (destroy all : Bool) :
    Handshake ({ g with data := g.data || !destroy, destroyed := g.destroyed || destroy }.setSignaller i ⟨.advance all, true⟩) := by
  have hdata : (g.data || !destroy || (g.destroyed || destroy)) = true := by
    cases destroy <;> simp
  refine ⟨h.sequence, h.waiters, h.snapshot, h.snapshotAt, fun _ _ => hdata, fun _ _ => ?_, fun hs j => ?_, fun hs j => ?_⟩
  · exact ⟨i, by rw [setSignaller_self]⟩
  · by_cases hj : j = i
    · subst hj
      rw [setSignaller_self]
      exact fun _ => .inl ⟨all, rfl⟩
    · rw [setSignaller_of_ne _ hj]
      exact h.advanced hs j
  · by_cases hj : j = i
    · subst hj
      rw [setSignaller_self]
      exact fun _ => nofun
    · rw [setSignaller_of_ne _ hj]
      exact h.asleep hs j

theorem Handshake.stepSignaller (h : Handshake g) (i : ι) : Handshake (g.stepSignaller i) := by
  have hmade := h.made i
  have hadvanced : g.waiter.sawNone = true → (g.signallers i).made = true → (∃ all, (g.signallers i).pc = .advance all) ∨
      g.snapshotAt < g.advances := fun hs hi => h.advanced hs i hi
  cases hpc : (g.signallers i).pc with
  | finished =>
    simp only [Gate.stepSignaller, hpc]
    exact h
  | advance all =>
    simp only [Gate.stepSignaller, hpc]
    have hle : g.snapshotAt < g.advances + 1 := Nat.lt_succ_of_le h.snapshotAt
    have hnext : Handshake { g with sequence := g.sequence + 1, advances := g.advances + 1 } := by
      refine ⟨?_, h.waiters, h.snapshot, Nat.le_of_lt hle, h.made, h.maker, fun _ _ _ => .inr hle, h.asleep⟩
      rw [h.sequence, BitVec.ofNat_add]
      rfl
    exact hnext.setSignaller hmade id (fun _ _ => .inr hle) fun _ _ => nofun
  | loadWaiters all =>
    rw [hpc] at hadvanced
    simp only [Gate.stepSignaller, hpc]
    refine h.setSignaller hmade id (fun hs hi => .inr ?_) fun hs _ => ?_
    · rcases hadvanced hs hi with ⟨_, hfalse⟩ | hlt
      · cases hfalse
      · exact hlt
    · -- the waiter is registered, so it is seen
      have hwaiters := h.waiters
      rw [hs] at hwaiters
      have hpos : all = true ∨ g.waiters > 0 := .inr (by rw [hwaiters]; decide)
      simp [hpos]
  | wake =>
    rw [hpc] at hadvanced
    have hlt : g.waiter.sawNone = true → (g.signallers i).made = true → g.snapshotAt < g.advances := by
      intro hs hi
      rcases hadvanced hs hi with ⟨_, hfalse⟩ | hlt
      · cases hfalse
      · exact hlt
    simp only [Gate.stepSignaller, hpc, Gate.setSignaller]
    by_cases hasleep : g.waiter = .asleep
    · have hroused := (h.roused hasleep false).setSignaller (s := ⟨.finished, (g.signallers i).made⟩) (i := i) hmade id
        nofun nofun
      simp only [hasleep]
      exact hroused
    · have hnext := h.setSignaller (s := ⟨.finished, (g.signallers i).made⟩) (i := i) hmade id (fun hs hi => .inr (hlt hs hi))
        fun hs => absurd hs hasleep
      split
      · exact absurd ‹_› hasleep
      · exact hnext

theorem Handshake.step (h : Handshake g) {e : GateEvent ι} (hfew : g.FewSignals e) : Handshake (g.step e).1 := by
  cases e with
  | call spins =>
    simp only [Gate.step]
    split
    · rename_i answer hpc
      have hregistrations := h.waiters
      rw [hpc] at hregistrations
      exact h.moved hregistrations nofun rfl
    · exact h
  | waiter chance => exact h.stepWaiter hfew
  | interrupt failed =>
    simp only [Gate.step]
    split
    · rename_i hpc
      exact h.roused hpc failed
    · exact h
  | publish i destroy all =>
    simp only [Gate.step]
    split
    · exact h.publish i destroy all
    · exact h
  | signaller i => exact h.stepSignaller i
  | consume => exact h.consume

/-- No lost wakeup: whenever the waiter is asleep although there is data, one of the signallers that made it so
is still in its signal; and the waiter count is that of the live registrations. -/
theorem no_lost_wakeup (data destroyed : Bool) {es : List (GateEvent ι)}
    (hes : Along FewSignals Gate.step (Gate.new data destroyed) es) :
    let g := after Gate.step (Gate.new data destroyed) es
    ¬ (g.waiter = .asleep ∧ g.hasData = true ∧ ∀ i, (g.signallers i).made = true → (g.signallers i).pc = .finished) ∧
      g.waiters = g.waiter.registrations := by
  have keep : ∀ (_ : List (GateEvent ι × Unit)) (g : Gate ι) (e : GateEvent ι), g.FewSignals e → Handshake g → Handshake (g.step e).1 :=
    fun _ _ _ hfew h => h.step hfew
  have run := trace_invariant_along keep (Handshake.new data destroyed) hes
  refine ⟨?_, run.waiters⟩
  rintro ⟨hasleep, hdata, hfinished⟩
  obtain ⟨i, hi⟩ := run.maker (by rw [hasleep]; rfl) hdata
  exact run.asleep hasleep i hi (hfinished i hi)

/-- The waiter falls asleep before the data is there, and a signal wakes it. -/
def wokenRun : List (GateEvent Unit) :=
  .call 1 :: List.replicate 11 (.waiter false) ++ [.publish () false false, .signaller (), .signaller (), .signaller ()]

theorem no_lost_wakeup_woken :
    (after Gate.step (Gate.new false false) (wokenRun.take 12)).waiter.sawNone = true ∧
    (after Gate.step (Gate.new false false) wokenRun).waiters = 1 ∧
    (after Gate.step (Gate.new false false) wokenRun).waiters =
      (after Gate.step (Gate.new false false) wokenRun).waiter.registrations :=
  ⟨by decide, by decide, (no_lost_wakeup false false (by decide : Along FewSignals Gate.step (Gate.new false false) wokenRun)).2⟩

end Gate

end Jwm.Ipc
