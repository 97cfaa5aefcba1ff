/-
Producers and consumers on one message ring (`typed_ring_buffer.rs`), each operation one shared access a
step: taking a direction lock, loading a cursor, copying a slot, storing a cursor, releasing a lock. A task
may stop for ever between any two steps; its locks are then taken over by others.
-/
import Jwm.Ipc.RingQueue

namespace Jwm.Ipc

open TypedRingBuffer BitVec Slot

/-! ## Tasks -/

/-- The next step of `try_write_message` or `write_message_overwrite`. -/
inductive WriteStep where
  | start
  | lock
  | check
  | loadWrite
  | loadRead (writeIdx : BitVec 32)
  | lockRead (writeIdx : BitVec 32)
  | checkRead (writeIdx : BitVec 32)
  | reloadRead (writeIdx : BitVec 32)
  | dropOldest (writeIdx readIdx : BitVec 32)
  | unlockRead (writeIdx : BitVec 32) (ok : Bool)
  | copy (writeIdx : BitVec 32)
  | copying (writeIdx : BitVec 32)
  | commit (writeIdx : BitVec 32)
  | unlock

/-- The next step of `try_read_next_message`. What it took is carried with its place in the stream. -/
inductive ReadStep (M : Type) where
  | start
  | lock
  | check
  | loadWrite
  | loadRead (writeIdx : BitVec 32)
  | copy (readIdx : BitVec 32)
  | copying (readIdx : BitVec 32)
  | advance (readIdx : BitVec 32) (slot : Slot M)
  | unlock (taken : Option (Nat × Slot M))

inductive Task (M : Type) where
  | idle
  | write (payload : M) (overwrite : Bool) (next : WriteStep)
  | read (next : ReadStep M)

namespace Task

variable {M : Type}

/-- The task is in the critical section of the write direction. -/
def locksWrite : Task M → Bool
  | write _ _ .start | write _ _ .lock => false
  | write _ _ _ => true
  | _ => false

/-- The task is in the critical section of the read direction. -/
def locksRead : Task M → Bool
  | write _ _ (.checkRead _) | write _ _ (.reloadRead _) | write _ _ (.dropOldest ..) | write _ _ (.unlockRead ..) => true
  | read .start | read .lock => false
  | read _ => true
  | _ => false

def copyingIn : Task M → Option (BitVec 32)
  | write _ _ (.copying writeIdx) => some writeIdx
  | _ => none

def copyingOut : Task M → Option (BitVec 32)
  | read (.copying readIdx) => some readIdx
  | _ => none

end Task

/-- What became of a message behind the read cursor. -/
inductive Fate (τ : Type) where
  | taken (reader : τ)
  | returned
  | dropped
deriving DecidableEq

/-- A ring and its tasks, with the payloads in the order they were committed, the fates of those behind the read cursor, and
what reads returned. -/
structure RingTasks (τ M : Type) where
  ring : TypedRingBuffer M
  writeLock : Option τ
  readLock : Option τ
  tasks : τ → Task M
  stopped : τ → Bool
  committed : List M
  fates : List (Fate τ)
  returned : List M
  returnedAt : List Nat

inductive RingEvent (τ M : Type) where
  | write (t : τ) (payload : M) (overwrite : Bool)
  | read (t : τ)
  /-- The next step of a task. With `giveUp` it stops waiting for a lock; `torn` is what a slot holds while it
  is being written. -/
  | step (t : τ) (giveUp : Bool) (torn : Slot M)
  | stop (t : τ)
  | destroy

namespace RingTasks

variable {τ M : Type}

def invalidDistance : String := "message cursor distance exceeds buffer capacity"

/-- `CursorGuard::acquire_until_deadline`: a free lock, or one whose holder has stopped. -/
def lockFree (s : RingTasks τ M) (lock : Option τ) : Bool :=
  match lock with
  | none => true
  | some holder => s.stopped holder

section Steps

variable [DecidableEq τ]

def goto (s : RingTasks τ M) (t : τ) (task : Task M) : RingTasks τ M := { s with tasks := Function.update s.tasks t task }

variable [WireSafe M]

def stepWrite (s : RingTasks τ M) (t : τ) (payload : M) (overwrite : Bool) (giveUp : Bool) (torn : Slot M) :
    WriteStep → RingTasks τ M
  | .start => s.goto t (if s.ring.isDestroyed then .idle else .write payload overwrite .lock)
  | .lock =>
    if giveUp then s.goto t .idle
    else if s.lockFree s.writeLock then { s with writeLock := some t }.goto t (.write payload overwrite .check)
    else s
  | .check => s.goto t (.write payload overwrite (if s.ring.isDestroyed || giveUp then .unlock else .loadWrite))
  | .loadWrite => s.goto t (.write payload overwrite (.loadRead s.ring.writeIdx))
  | .loadRead writeIdx =>
    match checkedPending writeIdx s.ring.readIdx s.ring.bufferSize invalidDistance with
    | .error _ => s.goto t (.write payload overwrite .unlock)
    | .ok pending =>
      if pending = s.ring.bufferSize then
        s.goto t (.write payload overwrite (if overwrite then .lockRead writeIdx else .unlock))
      else s.goto t (.write payload overwrite (.copy writeIdx))
  | .lockRead writeIdx =>
    if giveUp then s.goto t (.write payload overwrite .unlock)
    else if s.lockFree s.readLock then { s with readLock := some t }.goto t (.write payload overwrite (.checkRead writeIdx))
    else s
  | .checkRead writeIdx =>
    s.goto t (.write payload overwrite
      (if s.ring.isDestroyed || giveUp then .unlockRead writeIdx false else .reloadRead writeIdx))
  | .reloadRead writeIdx =>
    match checkedPending writeIdx s.ring.readIdx s.ring.bufferSize invalidDistance with
    | .error _ => s.goto t (.write payload overwrite (.unlockRead writeIdx false))
    | .ok pending =>
      if pending = s.ring.bufferSize then s.goto t (.write payload overwrite (.dropOldest writeIdx s.ring.readIdx))
      else s.goto t (.write payload overwrite (.unlockRead writeIdx true))
  | .dropOldest writeIdx readIdx =>
    { s with ring := { s.ring with readIdx := readIdx + 1 }, fates := s.fates ++ [Fate.dropped] }.goto t
      (.write payload overwrite (.unlockRead writeIdx true))
  | .unlockRead writeIdx ok =>
    { s with readLock := none }.goto t (.write payload overwrite (if ok then .copy writeIdx else .unlock))
  | .copy writeIdx =>
    { s with ring := (s.ring.writeSlot (s.ring.slotIdx writeIdx) torn).getD s.ring }.goto t
      (.write payload overwrite (.copying writeIdx))
  | .copying writeIdx =>
    { s with ring := (s.ring.writeSlot (s.ring.slotIdx writeIdx) (of payload)).getD s.ring }.goto t
      (.write payload overwrite (.commit writeIdx))
  | .commit writeIdx =>
    { s with ring := { s.ring with writeIdx := writeIdx + 1 }, committed := s.committed ++ [payload] }.goto t
      (.write payload overwrite .unlock)
  | .unlock => { s with writeLock := none }.goto t .idle

/-- A step of a reader. Its last one releases the lock and returns. -/
def stepRead (s : RingTasks τ M) (t : τ) (giveUp : Bool) : ReadStep M → RingTasks τ M
  | .start => s.goto t (if s.ring.isDestroyed then .idle else .read .lock)
  | .lock =>
    if giveUp then s.goto t .idle
    else if s.lockFree s.readLock then { s with readLock := some t }.goto t (.read .check)
    else s
  | .check => s.goto t (.read (if s.ring.isDestroyed || giveUp then .unlock none else .loadWrite))
  | .loadWrite => s.goto t (.read (.loadRead s.ring.writeIdx))
  | .loadRead writeIdx =>
    match checkedPending writeIdx s.ring.readIdx s.ring.bufferSize invalidDistance with
    | .error _ => s.goto t (.read (.unlock none))
    | .ok pending => s.goto t (.read (if pending = 0 then .unlock none else .copy s.ring.readIdx))
  | .copy readIdx => s.goto t (.read (.copying readIdx))
  | .copying readIdx =>
    match s.ring.readSlot (s.ring.slotIdx readIdx) with
    | some slot => s.goto t (.read (.advance readIdx slot))
    | none => s
  | .advance readIdx slot =>
    { s with ring := { s.ring with readIdx := readIdx + 1 }, fates := s.fates ++ [Fate.taken t] }.goto t
      (.read (.unlock (some (s.fates.length, slot))))
  | .unlock taken =>
    let s := { s with readLock := none }.goto t .idle
    match taken with
    | none => s
    | some (i, slot) =>
      match TypedRingBuffer.checkSlot slot "message checksum mismatch" with
      | .ok (some payload) =>
        { s with returned := s.returned ++ [payload], returnedAt := s.returnedAt ++ [i], fates := s.fates.set i .returned }
      | _ => s

def step (s : RingTasks τ M) : RingEvent τ M → RingTasks τ M × Unit
  | .write t payload overwrite =>
    (match s.stopped t, s.tasks t with
      | false, .idle => s.goto t (.write payload overwrite .start)
      | _, _ => s, ())
  | .read t =>
    (match s.stopped t, s.tasks t with
      | false, .idle => s.goto t (.read .start)
      | _, _ => s, ())
  | .step t giveUp torn =>
    (match s.stopped t, s.tasks t with
      | false, .write payload overwrite next => s.stepWrite t payload overwrite giveUp torn next
      | false, .read next => s.stepRead t giveUp next
      | _, _ => s, ())
  | .stop t => ({ s with stopped := Function.update s.stopped t true }, ())
  | .destroy => ({ s with ring := { s.ring with isDestroyed := true } }, ())

end Steps

def new (ring : TypedRingBuffer M) : RingTasks τ M where
  ring := ring
  writeLock := none
  readLock := none
  tasks := fun _ => .idle
  stopped := fun _ => false
  committed := []
  fates := []
  returned := []
  returnedAt := []

/-! ## The invariant -/

def capacity (s : RingTasks τ M) : Nat := 2 ^ s.ring.capacityLog2

/-- The slot of the message at a place of the stream, whose first cursor was `base`. -/
def slotAt (base : Nat) (s : RingTasks τ M) (i : Nat) : Option (Slot M) := s.ring.messageSlots[(base + i) % s.capacity]?

section Invariant

variable [WireSafe M]

/-- The cursors count the messages that were committed and those that were passed, what lies between them is in
its slots, and what was returned is what was committed, in order. -/
structure Stored (base : Nat) (s : RingTasks τ M) : Prop where
  writeIdx : s.ring.writeIdx = BitVec.ofNat 32 (base + s.committed.length)
  readIdx : s.ring.readIdx = BitVec.ofNat 32 (base + s.fates.length)
  behind : s.fates.length ≤ s.committed.length
  room : s.committed.length ≤ s.fates.length + s.capacity
  slots : ∀ i, s.fates.length ≤ i → i < s.committed.length → s.slotAt base i = s.committed[i]?.map of
  increasing : s.returnedAt.Pairwise (· < ·)
  returnedAt : ∀ i, i ∈ s.returnedAt ↔ s.fates[i]? = some .returned
  returned : s.returned.map some = s.returnedAt.map (s.committed[·]?)

def TaskOk (base : Nat) (s : RingTasks τ M) (t : τ) : Task M → Prop
  | .idle => True
  | .write payload _ next =>
    match next with
    | .loadRead w | .lockRead w | .checkRead w | .reloadRead w | .unlockRead w false => w = s.ring.writeIdx
    | .unlockRead w true | .copy w | .copying w => w = s.ring.writeIdx ∧ s.committed.length < s.fates.length + s.capacity
    | .dropOldest w r => w = s.ring.writeIdx ∧ r = s.ring.readIdx ∧ s.committed.length = s.fates.length + s.capacity
    | .commit w =>
      w = s.ring.writeIdx ∧ s.committed.length < s.fates.length + s.capacity ∧
        s.slotAt base s.committed.length = some (of payload)
    | .start | .lock | .check | .loadWrite | .unlock => True
  | .read next =>
    match next with
    | .loadRead w => ∃ n, s.fates.length ≤ n ∧ n ≤ s.committed.length ∧ w = BitVec.ofNat 32 (base + n)
    | .copy r | .copying r => r = s.ring.readIdx ∧ s.fates.length < s.committed.length
    | .advance r slot =>
      r = s.ring.readIdx ∧ s.fates.length < s.committed.length ∧ s.committed[s.fates.length]?.map of = some slot
    | .unlock (some (i, slot)) =>
      i + 1 = s.fates.length ∧ s.fates[i]? = some (.taken t) ∧ s.committed[i]?.map of = some slot
    | .start | .lock | .check | .loadWrite | .unlock none => True

/-- Moreover a live task in a critical section holds its lock and is right about the ring, and a message that was
taken is with the reader that took it. -/
structure Consistent (base : Nat) (s : RingTasks τ M) : Prop extends Stored base s where
  writeLock : ∀ t, s.stopped t = false → (s.tasks t).locksWrite = true → s.writeLock = some t
  readLock : ∀ t, s.stopped t = false → (s.tasks t).locksRead = true → s.readLock = some t
  task : ∀ t, s.stopped t = false → s.TaskOk base t (s.tasks t)
  taken : ∀ i t, s.fates[i]? = some (.taken t) → ∃ slot, s.tasks t = .read (.unlock (some (i, slot)))

theorem Consistent.new {ring : TypedRingBuffer M} (h : ring.writeIdx = ring.readIdx) :
    Consistent ring.readIdx.toNat (new ring : RingTasks τ M) := by
  have hidx : ring.readIdx = BitVec.ofNat 32 (ring.readIdx.toNat + 0) := by simp
  refine ⟨⟨h.trans hidx, hidx, Nat.le_refl _, Nat.zero_le _, ?_, List.Pairwise.nil, ?_, rfl⟩, nofun, nofun, fun _ _ => trivial, ?_⟩
  · intro i _ hi
    exact absurd hi (Nat.not_lt_zero i)
  · intro i
    simp [RingTasks.new]
  · intro i t hi
    simp [RingTasks.new] at hi

/-- What a task knows stays right while others only do what its locks leave them. -/
theorem TaskOk.mono {base : Nat} {s s' : RingTasks τ M} {t : τ} {task : Task M} (h : s.TaskOk base t task)
    (hcapacity : s'.capacity = s.capacity)
    (hwrite : task.locksWrite = true → s'.ring.writeIdx = s.ring.writeIdx ∧ s'.committed = s.committed ∧
      s'.slotAt base s.committed.length = s.slotAt base s.committed.length)
    (hread : task.locksRead = true → s'.ring.readIdx = s.ring.readIdx ∧ s'.fates = s.fates)
    (hcommitted : s.committed <+: s'.committed) (hfates : s.fates.length ≤ s'.fates.length) : s'.TaskOk base t task := by
  have hlength := hcommitted.length_le
  -- a committed message stays where it is
  have hkept : ∀ {i : Nat} {slot : Slot M}, s.committed[i]?.map of = some slot → s'.committed[i]?.map of = some slot := by
    intro i slot hslot
    obtain ⟨payload, hpayload, rfl⟩ := Option.map_eq_some_iff.1 hslot
    obtain ⟨more, hmore⟩ := hcommitted
    obtain ⟨hi, _⟩ := List.getElem?_eq_some_iff.1 hpayload
    rw [← hmore, List.getElem?_append_left hi, hpayload]
    rfl
  cases task with
  | idle => trivial
  | write payload overwrite next =>
    cases next with
    | start | lock | check | loadWrite | unlock => trivial
    | loadRead w | lockRead w | checkRead w | reloadRead w => exact h.trans (hwrite rfl).1.symm
    | unlockRead w ok =>
      obtain ⟨hw, hc, _⟩ := hwrite rfl
      cases ok with
      | false => exact h.trans hw.symm
      | true =>
        refine ⟨h.1.trans hw.symm, ?_⟩
        rw [hc, hcapacity]
        exact Nat.lt_of_lt_of_le h.2 (Nat.add_le_add_right hfates _)
    | copy w | copying w =>
      obtain ⟨hw, hc, _⟩ := hwrite rfl
      refine ⟨h.1.trans hw.symm, ?_⟩
      rw [hc, hcapacity]
      exact Nat.lt_of_lt_of_le h.2 (Nat.add_le_add_right hfates _)
    | dropOldest w r =>
      obtain ⟨hw, hc, _⟩ := hwrite rfl
      obtain ⟨hr, hf⟩ := hread rfl
      refine ⟨h.1.trans hw.symm, h.2.1.trans hr.symm, ?_⟩
      rw [hc, hf, hcapacity]
      exact h.2.2
    | commit w =>
      obtain ⟨hw, hc, hslot⟩ := hwrite rfl
      refine ⟨h.1.trans hw.symm, ?_, ?_⟩
      · rw [hc, hcapacity]
        exact Nat.lt_of_lt_of_le h.2.1 (Nat.add_le_add_right hfates _)
      · rw [hc, hslot]
        exact h.2.2
  | read next =>
    cases next with
    | start | lock | check | loadWrite => trivial
    | loadRead w =>
      obtain ⟨n, hn, hn', hw⟩ := h
      refine ⟨n, ?_, hn'.trans hlength, hw⟩
      rw [(hread rfl).2]
      exact hn
    | copy r | copying r =>
      obtain ⟨hr, hf⟩ := hread rfl
      refine ⟨h.1.trans hr.symm, ?_⟩
      rw [hf]
      exact Nat.lt_of_lt_of_le h.2 hlength
    | advance r slot =>
      obtain ⟨hr, hf⟩ := hread rfl
      refine ⟨h.1.trans hr.symm, ?_, ?_⟩
      · rw [hf]
        exact Nat.lt_of_lt_of_le h.2.1 hlength
      · rw [hf]
        exact hkept h.2.2
    | unlock taken =>
      cases taken with
      | none => trivial
      | some c =>
        obtain ⟨_, hf⟩ := hread rfl
        refine ⟨?_, ?_, hkept h.2.2⟩
        · rw [hf]
          exact h.1
        · rw [hf]
          exact h.2.1

end Invariant

/-! ## Cursors and slots -/

section Cursors

variable {base : Nat} {s : RingTasks τ M}

theorem pending_eq (base : Nat) {n d : Nat} (r : TypedRingBuffer M) (hd : d ≤ n) (hn : n ≤ d + 2 ^ r.capacityLog2) (message : String) :
    checkedPending (BitVec.ofNat 32 (base + n)) (BitVec.ofNat 32 (base + d)) r.bufferSize message = .ok (BitVec.ofNat 32 (n - d)) := by
  have hcap := r.capacity_le
  have hsub : BitVec.ofNat 32 (base + n) - BitVec.ofNat 32 (base + d) = BitVec.ofNat 32 (n - d) := by
    rw [show base + n = (n - d) + (base + d) by omega, ofNat_add (n - d), add_sub_cancel]
  unfold checkedPending
  rw [hsub, if_neg]
  rw [gt_iff_lt, lt_def, bufferSize_toNat, toNat_ofNat, Nat.mod_eq_of_lt (by omega)]
  omega

section

variable {n d : Nat} (r : TypedRingBuffer M) (hd : d ≤ n) (hn : n ≤ d + 2 ^ r.capacityLog2)
include hd hn

theorem ofNat_eq_bufferSize : BitVec.ofNat 32 (n - d) = r.bufferSize ↔ n = d + 2 ^ r.capacityLog2 := by
  have hcap := r.capacity_le
  rw [← toNat_inj, bufferSize_toNat, toNat_ofNat, Nat.mod_eq_of_lt (by omega)]
  omega

theorem ofNat_eq_zero : BitVec.ofNat 32 (n - d) = 0 ↔ n = d := by
  have hcap := r.capacity_le
  rw [← toNat_inj, toNat_ofNat, Nat.mod_eq_of_lt (by omega)]
  show n - d = 0 ↔ n = d
  omega

end

theorem slotIdx_ofNat (r : TypedRingBuffer M) (i : Nat) :
    r.slotIdx (BitVec.ofNat 32 (base + i)) = (base + i) % 2 ^ r.capacityLog2 := by
  rw [slotIdx_eq, toNat_ofNat, wrap_mod r.capacityLog2_le]

theorem slot_ne {c i j : Nat} (hlt : i < j) (hj : j < i + c) : (base + i) % c ≠ (base + j) % c := by
  intro heq
  have hmod := Nat.sub_mod_eq_zero_of_mod_eq heq.symm
  rw [show base + j - (base + i) = j - i by omega, Nat.mod_eq_of_lt (by omega)] at hmod
  omega

theorem slotAt_write (base : Nat) (s : RingTasks τ M) (n i : Nat) (slot : Slot M) :
    slotAt base { s with ring := (s.ring.writeSlot (s.ring.slotIdx (BitVec.ofNat 32 (base + n))) slot).getD s.ring } i =
      if (base + i) % s.capacity = (base + n) % s.capacity then some slot else s.slotAt base i := by
  have hlt := s.ring.slotIdx_lt (BitVec.ofNat 32 (base + n))
  unfold writeSlot
  rw [if_pos hlt, slotIdx_ofNat]
  replace hlt : (base + n) % s.capacity < s.ring.messageSlots.length := by
    rw [slotIdx_ofNat] at hlt
    exact hlt
  show (s.ring.messageSlots.set ((base + n) % s.capacity) slot)[(base + i) % s.capacity]? = _
  rw [List.getElem?_set]
  by_cases heq : (base + i) % s.capacity = (base + n) % s.capacity
  · rw [if_pos heq.symm, if_pos hlt, if_pos heq]
  · rw [if_neg fun h => heq h.symm, if_neg heq]
    rfl

end Cursors

end RingTasks

end Jwm.Ipc
