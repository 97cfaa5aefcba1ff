/-
The shared ring is a bounded queue: its operations answer as those of a plain list of slots do, for
every capacity and wherever the cursors start, also across the wrap of the 32-bit cursors.
-/
import Jwm.Data.Circular
import Jwm.Data.Run
import Jwm.Ipc.TypedRingBuffer

namespace Jwm.Ipc

open List BitVec

variable {M : Type}

namespace TypedRingBuffer

/-! ## Cursors -/

theorem wrap_mod {k : Nat} (hk : k ≤ 31) (a : Nat) : a % 2 ^ 32 % 2 ^ k = a % 2 ^ k :=
  Nat.mod_mod_of_dvd a (Nat.pow_dvd_pow 2 (by omega))

section

variable (r : TypedRingBuffer M)

theorem capacity_le : 2 ^ r.capacityLog2 ≤ 2 ^ 31 := Nat.pow_le_pow_right (by decide) r.capacityLog2_le

theorem bufferSize_toNat : r.bufferSize.toNat = 2 ^ r.capacityLog2 := by
  rw [bufferSize, toNat_ofNat]
  exact Nat.mod_eq_of_lt (lt_of_le_of_lt r.capacity_le (by decide))

theorem slotIdx_eq (idx : BitVec 32) : r.slotIdx idx = idx.toNat % 2 ^ r.capacityLog2 := by
  have hmask : r.bufferMask.toNat = 2 ^ r.capacityLog2 - 1 := by
    have hpos : 0 < 2 ^ r.capacityLog2 := Nat.two_pow_pos _
    have hle := r.capacity_le
    rw [bufferMask, toNat_sub, bufferSize_toNat, show BitVec.toNat (1 : BitVec 32) = 1 from rfl]
    omega
  rw [slotIdx, toNat_and, hmask, Nat.and_two_pow_sub_one_eq_mod]

theorem slotIdx_lt (idx : BitVec 32) : r.slotIdx idx < r.messageSlots.length := by
  rw [slotIdx_eq, r.slots_length]
  exact Nat.mod_lt _ (Nat.two_pow_pos _)

end

def distance (r : TypedRingBuffer M) : Nat := (r.writeIdx - r.readIdx).toNat

section

variable (r : TypedRingBuffer M)

theorem pending_eq : r.pending = if r.distance ≤ 2 ^ r.capacityLog2 then .ok (r.writeIdx - r.readIdx)
      else .error (.invalidData "message cursor distance exceeds buffer capacity") := by
  have hgt : r.writeIdx - r.readIdx > r.bufferSize ↔ ¬ r.distance ≤ 2 ^ r.capacityLog2 := by
    rw [gt_iff_lt, lt_def, bufferSize_toNat, distance, not_le]
  unfold pending checkedPending
  simp only [hgt]
  split <;> simp_all

theorem pending_full : r.writeIdx - r.readIdx = r.bufferSize ↔ r.distance = 2 ^ r.capacityLog2 := by
  rw [← toNat_inj, bufferSize_toNat]
  rfl

theorem pending_zero : r.writeIdx - r.readIdx = 0 ↔ r.distance = 0 := by
  rw [← toNat_inj]
  rfl

theorem writeIdx_mod {k : Nat} (hk : k ≤ 31) : r.writeIdx.toNat % 2 ^ k = (r.readIdx.toNat + r.distance) % 2 ^ k := by
  have h : r.writeIdx.toNat = (r.readIdx.toNat + r.distance) % 2 ^ 32 := by
    have := r.writeIdx.isLt
    have := r.readIdx.isLt
    rw [distance, toNat_sub]
    omega
  rw [h, wrap_mod hk]

theorem readIdx_succ_mod {k : Nat} (hk : k ≤ 31) : (r.readIdx + 1).toNat % 2 ^ k = (r.readIdx.toNat + 1) % 2 ^ k := by
  rw [toNat_add, wrap_mod hk]
  rfl

end

theorem distance_write_succ {r : TypedRingBuffer M} (h : r.distance < 2 ^ 31) :
    (r.writeIdx + 1 - r.readIdx).toNat = r.distance + 1 := by
  unfold distance at h ⊢
  bv_omega

theorem distance_read_succ {r : TypedRingBuffer M} {count : Nat} (h : r.distance = count + 1) :
    (r.writeIdx - (r.readIdx + 1)).toNat = count := by
  unfold distance at h
  bv_omega

theorem slots_length_set (r : TypedRingBuffer M) (i : Nat) (slot : Slot M) :
    (r.messageSlots.set i slot).length = 2 ^ r.capacityLog2 := by rw [length_set, r.slots_length]

def withSlot (r : TypedRingBuffer M) (i : Nat) (slot : Slot M) : TypedRingBuffer M :=
  { r with messageSlots := r.messageSlots.set i slot, slots_length := r.slots_length_set i slot }

theorem commit_eq (r : TypedRingBuffer M) (slot : Slot M) :
    r.commit slot = some { r.withSlot (r.slotIdx r.writeIdx) slot with writeIdx := r.writeIdx + 1 } := by
  unfold commit writeSlot
  rw [if_pos (r.slotIdx_lt _)]
  rfl

end TypedRingBuffer

/-! ## The queue -/

/-- Pending slots, oldest first, from the place `oldest` of a ring of `capacity` slots. -/
structure SlotQueue (M : Type) where
  capacity : Nat
  slots : List (Slot M)
  oldest : Nat

namespace SlotQueue

def full (q : SlotQueue M) : Bool := q.slots.length = q.capacity

/-- Without the `count` oldest. -/
def drop (q : SlotQueue M) (count : Nat) : SlotQueue M :=
  { q with slots := q.slots.drop count, oldest := (q.oldest + count) % q.capacity }

theorem drop_drop (q : SlotQueue M) (a b : Nat) : (q.drop a).drop b = q.drop (a + b) := by
  simp only [drop, List.drop_drop, Nat.mod_add_mod, Nat.add_assoc]

end SlotQueue

namespace TypedRingBuffer

/-- The slots between the cursors of `r` are those of `q`. -/
structure Represents (r : TypedRingBuffer M) (q : SlotQueue M) : Prop where
  live : r.isDestroyed = false
  capacity : q.capacity = r.messageSlots.length
  bounded : r.distance ≤ r.messageSlots.length
  slots : q.slots = window r.messageSlots r.readIdx.toNat r.distance
  oldest : q.oldest = r.readIdx.toNat % r.messageSlots.length

def queue (r : TypedRingBuffer M) : SlotQueue M :=
  ⟨r.messageSlots.length, window r.messageSlots r.readIdx.toNat r.distance, r.readIdx.toNat % r.messageSlots.length⟩

theorem represents_queue {r : TypedRingBuffer M} (live : r.isDestroyed = false) (h : r.distance ≤ 2 ^ r.capacityLog2) :
    Represents r r.queue :=
  ⟨live, rfl, by rw [r.slots_length]; exact h, rfl, rfl⟩

namespace Represents

variable {r : TypedRingBuffer M} {q : SlotQueue M}

section

variable (h : Represents r q)
include h

theorem length : q.slots.length = r.distance := by rw [h.slots, length_window h.bounded]

theorem pending : r.pending = .ok (r.writeIdx - r.readIdx) := by
  rw [pending_eq, if_pos (by rw [← r.slots_length]; exact h.bounded)]

theorem full : r.writeIdx - r.readIdx = r.bufferSize ↔ q.full = true := by
  rw [pending_full, ← r.slots_length, SlotQueue.full, h.length, h.capacity, decide_eq_true_eq]

theorem room (hfull : ¬ q.full = true) : r.distance < r.messageSlots.length := by
  rw [SlotQueue.full, h.length, h.capacity, decide_eq_true_eq] at hfull
  exact lt_of_le_of_ne h.bounded hfull

theorem empty (hd : r.distance = 0) : q.slots = [] :=
  eq_nil_of_length_eq_zero (by rw [h.length, hd])

theorem drop_zero : q.drop 0 = q := by
  have hlt : q.oldest < q.capacity := by
    rw [h.oldest, h.capacity, r.slots_length]
    exact Nat.mod_lt _ (Nat.two_pow_pos _)
  rw [SlotQueue.drop, List.drop_zero, Nat.add_zero, Nat.mod_eq_of_lt hlt]

theorem commit (hroom : r.distance < r.messageSlots.length) (slot : Slot M) :
    Represents { r.withSlot (r.slotIdx r.writeIdx) slot with writeIdx := r.writeIdx + 1 } { q with slots := q.slots ++ [slot] } := by
  have hlen : (r.messageSlots.set (r.slotIdx r.writeIdx) slot).length = r.messageSlots.length := length_set
  have hdist := distance_write_succ (lt_of_lt_of_le hroom (r.slots_length ▸ r.capacity_le))
  constructor
  · exact h.live
  · exact h.capacity.trans hlen.symm
  · show (r.writeIdx + 1 - r.readIdx).toNat ≤ _
    rw [hdist, withSlot, hlen]
    exact hroom
  · show q.slots ++ [slot] = window _ r.readIdx.toNat (r.writeIdx + 1 - r.readIdx).toNat
    rw [hdist, withSlot, slotIdx_eq, r.writeIdx_mod r.capacityLog2_le, ← r.slots_length, window_push hroom, h.slots]
  · exact h.oldest.trans (by rw [withSlot, hlen])

theorem advance (hsome : 0 < r.distance) :
    ∃ slot rest, r.readSlot (r.slotIdx r.readIdx) = some slot ∧ q.slots = slot :: rest ∧
      Represents { r with readIdx := r.readIdx + 1 } (q.drop 1) := by
  obtain ⟨count, hcount⟩ := Nat.exists_eq_succ_of_ne_zero (Nat.pos_iff_ne_zero.1 hsome)
  have hb := h.bounded
  rw [hcount] at hb
  obtain ⟨slot, hslot, hwindow⟩ := window_succ r.readIdx.toNat hb
  have hdist := distance_read_succ hcount
  have hslots : q.slots = slot :: window r.messageSlots (r.readIdx.toNat + 1) count := by rw [h.slots, hcount, hwindow]
  refine ⟨slot, _, ?_, hslots, ?_⟩
  · rw [readSlot, slotIdx_eq, ← r.slots_length]
    exact hslot
  · have hmod := r.readIdx_succ_mod r.capacityLog2_le
    rw [← r.slots_length] at hmod
    constructor
    · exact h.live
    · exact h.capacity
    · show (r.writeIdx - (r.readIdx + 1)).toNat ≤ _
      rw [hdist]
      exact Nat.le_of_succ_le hb
    · show q.slots.drop 1 = window r.messageSlots (r.readIdx + 1).toNat (r.writeIdx - (r.readIdx + 1)).toNat
      rw [hdist, hslots, drop_one, tail_cons, window_congr hmod]
    · show (q.oldest + 1) % q.capacity = (r.readIdx + 1).toNat % _
      rw [hmod, h.oldest, h.capacity, Nat.mod_add_mod]

/-- Moving the read cursor to the write cursor empties the queue; the newest slot lies before it. -/
theorem latest (hsome : 0 < r.distance) : r.readSlot (r.slotIdx (r.writeIdx - 1)) = q.slots.getLast? ∧
      Represents { r with readIdx := r.writeIdx } (q.drop q.slots.length) := by
  obtain ⟨count, hcount⟩ := Nat.exists_eq_succ_of_ne_zero (Nat.pos_iff_ne_zero.1 hsome)
  have hb := h.bounded
  rw [hcount] at hb
  constructor
  · have hprev : (r.writeIdx - 1).toNat % 2 ^ r.capacityLog2 = (r.readIdx.toNat + count) % 2 ^ r.capacityLog2 := by
      have hw : (r.writeIdx - 1).toNat = (r.readIdx.toNat + count) % 2 ^ 32 := by
        have := r.writeIdx.isLt
        have := r.readIdx.isLt
        unfold distance at hcount
        rw [toNat_sub] at hcount ⊢
        rw [show BitVec.toNat (1 : BitVec 32) = 1 from rfl]
        omega
      rw [hw, wrap_mod r.capacityLog2_le]
    rw [readSlot, slotIdx_eq, hprev, ← r.slots_length, h.slots, hcount, getLast?_window hb]
  · have hself : (r.writeIdx - r.writeIdx).toNat = 0 := by rw [BitVec.sub_self]; rfl
    constructor
    · exact h.live
    · exact h.capacity
    · show (r.writeIdx - r.writeIdx).toNat ≤ _
      rw [hself]
      exact Nat.zero_le _
    · show q.slots.drop q.slots.length = window r.messageSlots _ (r.writeIdx - r.writeIdx).toNat
      rw [hself, drop_length, window, take_zero]
    · show (q.oldest + q.slots.length) % q.capacity = r.writeIdx.toNat % _
      have hw := r.writeIdx_mod r.capacityLog2_le
      rw [← r.slots_length] at hw
      rw [hw, h.oldest, h.length, h.capacity, Nat.mod_add_mod]

theorem corrupt {i : Nat} (hi : i < r.messageSlots.length) (slot : Slot M) : Represents (r.withSlot i slot)
      { q with slots := q.slots.set ((i + q.capacity - q.oldest) % q.capacity) slot } := by
  have hlen : (r.messageSlots.set i slot).length = r.messageSlots.length := length_set
  constructor
  · exact h.live
  · exact h.capacity.trans hlen.symm
  · show r.distance ≤ (r.messageSlots.set i slot).length
    rw [hlen]
    exact h.bounded
  · show q.slots.set _ slot = window (r.messageSlots.set i slot) r.readIdx.toNat r.distance
    rw [window_set hi h.bounded, h.slots, h.capacity, h.oldest]
  · exact h.oldest.trans (by rw [withSlot, hlen])

end

end Represents

end TypedRingBuffer

/-! ## Operations of the queue -/

variable [WireSafe M]

namespace SlotQueue

def push (q : SlotQueue M) (payload : M) : SlotQueue M := { q with slots := q.slots ++ [Slot.of payload] }

/-- A slot as a reader sees it; an empty queue has none. -/
def look (slot : Option (Slot M)) (mismatch : String) : Except RingError (Option M) :=
  match slot with
  | none => .ok none
  | some slot => TypedRingBuffer.checkSlot slot mismatch

/-- The intact messages among the oldest slots until `room` are found, and how many slots that takes. -/
def drainPrefix : List (Slot M) → Nat → List M × Nat
  | [], _ => ([], 0)
  | _ :: _, 0 => ([], 0)
  | slot :: slots, room + 1 =>
    if slot.intact then
      let rest := drainPrefix slots room
      (slot.payload :: rest.1, rest.2 + 1)
    else
      let rest := drainPrefix slots (room + 1)
      (rest.1, rest.2 + 1)

def step (q : SlotQueue M) : TypedRingBuffer.Call M → SlotQueue M × TypedRingBuffer.Reply M
  | .tryWriteMessage payload =>
    if q.full then (q, .written (.ok false)) else (q.push payload, .written (.ok true))
  | .writeMessageOverwrite payload =>
    ((if q.full then q.drop 1 else q).push payload, .overwritten (.ok ()))
  | .tryReadNextMessage => (q.drop (min 1 q.slots.length), .message (look q.slots.head? "message checksum mismatch"))
  | .tryReadLatestMessage => (q.drop q.slots.length, .message (look q.slots.getLast? "latest message checksum mismatch"))
  | .tryPeekMessage => (q, .message (look q.slots.head? "message checksum mismatch"))
  | .drainMessagesInto output max =>
    let drained := drainPrefix q.slots max
    (q.drop drained.2, .drained (output ++ drained.1) (.ok drained.1.length))
  | .corrupt slotIdx slot =>
    (if slotIdx < q.capacity then
      { q with slots := q.slots.set ((slotIdx + q.capacity - q.oldest) % q.capacity) slot }
    else q, .corrupted)

end SlotQueue

namespace TypedRingBuffer

/-! ## Refinement -/

section Refinement

variable {r : TypedRingBuffer M} {q : SlotQueue M}

theorem Represents.look_front (h : Represents r q) (hsome : 0 < r.distance) :
    ∃ slot rest, r.readSlot (r.slotIdx r.readIdx) = some slot ∧ q.slots = slot :: rest ∧
      Represents { r with readIdx := r.readIdx + 1 } (q.drop 1) ∧
      ∀ mismatch, checkSlot slot mismatch = SlotQueue.look q.slots.head? mismatch := by
  obtain ⟨slot, rest, hread, hslots, hrep⟩ := h.advance hsome
  exact ⟨slot, rest, hread, hslots, hrep, fun mismatch => by rw [hslots]; rfl⟩

open SlotQueue TypedRingBuffer

/-- The loop of `drain_messages_into` takes the drained prefix off. -/
theorem Represents.drainLoop : ∀ (remaining room : Nat) {r : TypedRingBuffer M} {q : SlotQueue M}, Represents r q →
    r.distance = remaining →
    ∃ r', r.drainLoop remaining room = some (r', (drainPrefix q.slots room).1) ∧
      Represents r' (q.drop (drainPrefix q.slots room).2)
  | 0, room, r, q, h, hd => by
    have hnil : q.slots = [] := eq_nil_of_length_eq_zero (by rw [h.length, hd])
    refine ⟨r, by rw [TypedRingBuffer.drainLoop, hnil, SlotQueue.drainPrefix], ?_⟩
    rw [hnil, drainPrefix, h.drop_zero]
    exact h
  | remaining + 1, 0, r, q, h, hd => by
    obtain ⟨slot, rest, _, hslots, _⟩ := h.advance (by omega)
    refine ⟨r, by rw [TypedRingBuffer.drainLoop, hslots, SlotQueue.drainPrefix], ?_⟩
    rw [hslots, drainPrefix, h.drop_zero]
    exact h
  | remaining + 1, room + 1, r, q, h, hd => by
    obtain ⟨slot, rest, hread, hslots, hrep⟩ := h.advance (by omega)
    have hrest : (q.drop 1).slots = rest := by
      show q.slots.drop 1 = rest
      rw [hslots, drop_one, tail_cons]
    rw [TypedRingBuffer.drainLoop, hread, hslots, SlotQueue.drainPrefix]
    by_cases hi : slot.intact = true
    · obtain ⟨r', hloop, hr'⟩ := Represents.drainLoop remaining room hrep (distance_read_succ hd)
      rw [hrest, SlotQueue.drop_drop, Nat.add_comm 1] at hr'
      rw [hrest] at hloop
      refine ⟨r', ?_, ?_⟩
      · simp only [hi, if_true, hloop]
        rfl
      · simp only [hi, if_true]
        exact hr'
    · obtain ⟨r', hloop, hr'⟩ := Represents.drainLoop remaining (room + 1) hrep (distance_read_succ hd)
      rw [hrest, SlotQueue.drop_drop, Nat.add_comm 1] at hr'
      rw [hrest] at hloop
      refine ⟨r', ?_, ?_⟩
      · simp only [hi, hloop]
        rfl
      · simp only [hi]
        exact hr'

/-- A ring that represents a queue answers each call as the queue does, and represents what it leaves. -/
theorem Represents.step (h : Represents r q) (call : Call M) :
    (r.step call).2 = (q.step call).2 ∧ Represents (r.step call).1 (q.step call).1 := by
  have hlive : ¬ r.isDestroyed = true := by rw [h.live]; simp
  cases call with
  | tryWriteMessage payload =>
    simp only [TypedRingBuffer.step, tryWriteMessage, if_neg hlive, h.pending, SlotQueue.step, commit_eq]
    by_cases hfull : q.full = true
    · rw [if_pos (h.full.2 hfull), if_pos hfull]
      exact ⟨rfl, h⟩
    · rw [if_neg fun e => hfull (h.full.1 e), if_neg hfull]
      exact ⟨rfl, h.commit (h.room hfull) _⟩
  | writeMessageOverwrite payload =>
    simp only [TypedRingBuffer.step, writeMessageOverwrite, if_neg hlive, h.pending, SlotQueue.step, commit_eq]
    by_cases hfull : q.full = true
    · rw [if_pos (h.full.2 hfull), if_pos hfull]
      have hd : r.distance = r.messageSlots.length := by rw [(pending_full r).1 (h.full.2 hfull), r.slots_length]
      have hpos : 0 < r.messageSlots.length := by rw [r.slots_length]; exact Nat.two_pow_pos _
      obtain ⟨_, _, _, _, hrep⟩ := h.advance (by omega)
      refine ⟨rfl, hrep.commit ?_ _⟩
      show (r.writeIdx - (r.readIdx + 1)).toNat < r.messageSlots.length
      rw [distance_read_succ (show r.distance = r.messageSlots.length - 1 + 1 by omega)]
      omega
    · rw [if_neg fun e => hfull (h.full.1 e), if_neg hfull]
      exact ⟨rfl, h.commit (h.room hfull) _⟩
  | tryReadNextMessage =>
    simp only [TypedRingBuffer.step, tryReadNextMessage, if_neg hlive, h.pending, SlotQueue.step]
    rcases Nat.eq_zero_or_pos r.distance with hd | hd
    · rw [if_pos ((pending_zero r).2 hd), h.empty hd]
      exact ⟨rfl, h.drop_zero.symm ▸ h⟩
    · obtain ⟨slot, rest, hread, hslots, hrep, hlook⟩ := h.look_front hd
      rw [if_neg fun e => absurd ((pending_zero r).1 e) (by omega), hread, ← hlook, hslots]
      exact ⟨rfl, hrep⟩
  | tryReadLatestMessage =>
    simp only [TypedRingBuffer.step, tryReadLatestMessage, if_neg hlive, h.pending, SlotQueue.step]
    rcases Nat.eq_zero_or_pos r.distance with hd | hd
    · rw [if_pos ((pending_zero r).2 hd), h.empty hd]
      exact ⟨rfl, h.drop_zero.symm ▸ h⟩
    · obtain ⟨hread, hrep⟩ := h.latest hd
      rw [if_neg fun e => absurd ((pending_zero r).1 e) (by omega), hread]
      cases hl : q.slots.getLast? with
      | none =>
        have hlen := h.length
        rw [getLast?_eq_none_iff.1 hl, length_nil] at hlen
        omega
      | some slot => exact ⟨rfl, hrep⟩
  | tryPeekMessage =>
    simp only [TypedRingBuffer.step, tryPeekMessage, if_neg hlive, h.pending, SlotQueue.step]
    rcases Nat.eq_zero_or_pos r.distance with hd | hd
    · rw [if_pos ((pending_zero r).2 hd), h.empty hd]
      exact ⟨rfl, h⟩
    · obtain ⟨slot, rest, hread, hslots, hrep, hlook⟩ := h.look_front hd
      rw [if_neg fun e => absurd ((pending_zero r).1 e) (by omega), hread, ← hlook]
      exact ⟨rfl, h⟩
  | drainMessagesInto output max =>
    simp only [TypedRingBuffer.step, drainMessagesInto, h.pending, SlotQueue.step]
    by_cases hmax : max = 0
    · subst hmax
      have hprefix : drainPrefix q.slots 0 = ([], 0) := by cases q.slots <;> rfl
      rw [if_pos (by simp), hprefix, append_nil, h.drop_zero]
      exact ⟨rfl, h⟩
    · obtain ⟨r', hloop, hr'⟩ := Represents.drainLoop r.distance max h rfl
      rw [if_neg (by simp [hmax, h.live]), show (r.writeIdx - r.readIdx).toNat = r.distance from rfl, hloop]
      exact ⟨rfl, hr'⟩
  | corrupt i slot =>
    simp only [TypedRingBuffer.step, SlotQueue.step, writeSlot, h.capacity]
    by_cases hi : i < r.messageSlots.length
    · rw [if_pos hi, if_pos hi]
      have hc := h.corrupt hi slot
      rw [h.capacity] at hc
      exact ⟨trivial, hc⟩
    · rw [if_neg hi, if_neg hi]
      exact ⟨trivial, h⟩

end Refinement

/-! ## Every ring -/

def Call.readsCursors : Call M → Bool
  | drainMessagesInto _ max => max ≠ 0
  | corrupt _ _ => false
  | tryWriteMessage _ | writeMessageOverwrite _ | tryReadNextMessage | tryReadLatestMessage | tryPeekMessage => true

/-- The reply of a call that fails; a drain gives its buffer back as it was. -/
def Call.refusal (error : RingError) : Call M → Reply M
  | tryWriteMessage _ => .written (.error error)
  | writeMessageOverwrite _ => .overwritten (.error error)
  | tryReadNextMessage | tryReadLatestMessage | tryPeekMessage => .message (.error error)
  | drainMessagesInto output _ => .drained output (.error error)
  | corrupt _ _ => .corrupted

/-- With more than the capacity between the cursors a call fails and changes nothing. -/
theorem step_of_bad_cursors {r : TypedRingBuffer M} (live : r.isDestroyed = false) (h : ¬ r.distance ≤ 2 ^ r.capacityLog2)
    {call : Call M} (hcall : call.readsCursors = true) :
    r.step call = (r, call.refusal (.invalidData "message cursor distance exceeds buffer capacity")) := by
  have hp : r.pending = .error (.invalidData "message cursor distance exceeds buffer capacity") := by
    rw [pending_eq, if_neg h]
  cases call with
  | tryWriteMessage payload => simp [step, tryWriteMessage, live, hp, reply, Call.refusal]
  | writeMessageOverwrite payload => simp [step, writeMessageOverwrite, live, hp, reply, Call.refusal]
  | tryReadNextMessage => simp [step, tryReadNextMessage, live, hp, reply, Call.refusal]
  | tryReadLatestMessage => simp [step, tryReadLatestMessage, live, hp, reply, Call.refusal]
  | tryPeekMessage => simp [step, tryPeekMessage, live, hp, reply, Call.refusal]
  | drainMessagesInto output max =>
    have hmax : max ≠ 0 := by simpa [Call.readsCursors] using hcall
    simp [step, drainMessagesInto, live, hp, hmax, Call.refusal]
  | corrupt i slot => cases hcall

theorem step_of_destroyed {r : TypedRingBuffer M} (h : r.isDestroyed = true) (call : Call M) : (r.step call).2 ≠ .fault := by
  cases call with
  | tryWriteMessage payload => simp [step, tryWriteMessage, h, reply]
  | writeMessageOverwrite payload => simp [step, writeMessageOverwrite, h, reply]
  | tryReadNextMessage => simp [step, tryReadNextMessage, h, reply]
  | tryReadLatestMessage => simp [step, tryReadLatestMessage, h, reply]
  | tryPeekMessage => simp [step, tryPeekMessage, h, reply]
  | drainMessagesInto output max => simp [step, drainMessagesInto, h]
  | corrupt i slot => simp [step]

theorem queue_step_ne_fault (q : SlotQueue M) (call : Call M) : (q.step call).2 ≠ .fault := by
  cases call with
  | tryWriteMessage payload => rw [SlotQueue.step]; split <;> simp
  | writeMessageOverwrite | tryReadNextMessage | tryReadLatestMessage | tryPeekMessage | drainMessagesInto | corrupt =>
    simp [SlotQueue.step]

theorem step_ne_fault (r : TypedRingBuffer M) (call : Call M) : (r.step call).2 ≠ .fault := by
  by_cases hd : r.isDestroyed = true
  · exact step_of_destroyed hd call
  · have live : r.isDestroyed = false := by simpa using hd
    by_cases hb : r.distance ≤ 2 ^ r.capacityLog2
    · rw [((represents_queue live hb).step call).1]
      exact queue_step_ne_fault _ _
    · by_cases hc : call.readsCursors = true
      · rw [step_of_bad_cursors live hb hc]
        cases call <;> nofun
      · cases call with
        | drainMessagesInto output max =>
          have hmax : max = 0 := by simpa [Call.readsCursors] using hc
          simp [step, drainMessagesInto, hmax]
        | corrupt i slot => simp [step]
        | tryWriteMessage | writeMessageOverwrite | tryReadNextMessage | tryReadLatestMessage | tryPeekMessage =>
          exact absurd rfl hc

/-- The shared ring refines a bounded queue, for every power-of-two capacity up to `2 ^ 31` and with slots overwritten
between calls. No call touches a slot outside the mapping, and cursors too far apart are reported as `InvalidData` with
nothing changed, except that a drain of at most nothing does not look at them. -/
theorem ring_refines_queue (r : TypedRingBuffer M) :
    (r.isDestroyed = false → r.distance ≤ 2 ^ r.capacityLog2 →
      ∀ calls, answers step r calls = answers SlotQueue.step r.queue calls) ∧
    (∀ call, (r.step call).2 ≠ .fault) ∧
    (r.isDestroyed = false → ¬ r.distance ≤ 2 ^ r.capacityLog2 → ∀ call, call.readsCursors = true →
      r.step call = (r, call.refusal (.invalidData "message cursor distance exceeds buffer capacity"))) ∧
    ∀ output, r.step (.drainMessagesInto output 0) = (r, .drained output (.ok 0)) := by
  refine ⟨fun live hb calls => ?_, r.step_ne_fault, fun live hb call => step_of_bad_cursors live hb, fun output => rfl⟩
  exact answers_simulation (fun _ _ call h => h.step call) (represents_queue live hb) calls

/-- Two slots and both cursors at `u32::MAX`: the cursors wrap with the first message. -/
theorem ring_refines_queue_wrapping :
    let r : TypedRingBuffer Byte := ⟨1, [⟨0, 0⟩, ⟨0, 0⟩], 0xffffffff, 0xffffffff, false, by decide, rfl⟩
    answers step r [.tryWriteMessage 7, .tryWriteMessage 8, .tryWriteMessage 9, .corrupt 1 ⟨0, 7⟩, .tryReadNextMessage,
        .writeMessageOverwrite 9, .drainMessagesInto [1] 5] =
      [.written (.ok true), .written (.ok true), .written (.ok false), .corrupted,
        .message (.error (.invalidData "message checksum mismatch")), .overwritten (.ok ()), .drained [1, 8, 9] (.ok 2)] := by
  intro r
  rw [(ring_refines_queue r).1 rfl (by decide)]
  decide +kernel

/-- A drain of at most nothing returns before it looks at the cursors, however far apart they lie. -/
theorem drain_nothing_accepts_bad_cursors :
    ∃ r : TypedRingBuffer Byte, r.isDestroyed = false ∧ ¬ r.distance ≤ 2 ^ r.capacityLog2 ∧
      (r.step (.drainMessagesInto [] 0)).2 = .drained [] (.ok 0) :=
  ⟨⟨0, [⟨0, 0⟩], 5, 0, false, by decide, rfl⟩, rfl, by decide, rfl⟩

end TypedRingBuffer

end Jwm.Ipc
