/-
The shared-memory ring of `shared_structures/src/typed_ring_buffer.rs`: checksummed slots, and two
free-running 32-bit cursors that any process with the mapping can overwrite.
-/
import Jwm.Data.Bytes

namespace Jwm.Ipc

/-! ## Slots -/

/-- `WireSafe`: a payload is its bytes. -/
class WireSafe (M : Type) where
  bytes : M → List Byte

instance : WireSafe Byte := ⟨fun byte => [byte]⟩

/-- `Checksum::write`: eight bytes a round, the last chunk filled up with zeros. -/
def checksumWrite (state : BitVec 64) (bytes : List Byte) : BitVec 64 :=
  (bytes.toChunks 8).foldl (fun state chunk =>
    let word := (chunk.zipIdx.map fun b => (b.1.setWidth 64 : BitVec 64) <<< (8 * b.2)).foldl (· ||| ·) 0
    (state ^^^ word) * 0x00000100000001b3) state

def checksumOf {M : Type} [WireSafe M] (payload : M) : BitVec 32 :=
  let state := checksumWrite 0xcbf29ce484222325 (WireSafe.bytes payload)
  (state ^^^ (state >>> 32)).setWidth 32

structure Slot (M : Type) where
  checksum : BitVec 32
  payload : M
deriving DecidableEq

variable {M : Type}

def Slot.of [WireSafe M] (payload : M) : Slot M := ⟨checksumOf payload, payload⟩

def Slot.intact [WireSafe M] (slot : Slot M) : Bool := checksumOf slot.payload = slot.checksum

/-! ## The ring -/

inductive RingError
  | brokenPipe (message : String)
  | invalidData (message : String)
deriving DecidableEq

/-- The message half of the mapping; the capacity is a power of two that fits the protocol's `u32`. -/
structure TypedRingBuffer (M : Type) where
  capacityLog2 : Nat
  messageSlots : List (Slot M)
  writeIdx : BitVec 32
  readIdx : BitVec 32
  isDestroyed : Bool
  capacityLog2_le : capacityLog2 ≤ 31
  slots_length : messageSlots.length = 2 ^ capacityLog2

/-- `checked_pending`. -/
def checkedPending (writeIdx readIdx capacity : BitVec 32) (invalidMessage : String) : Except RingError (BitVec 32) :=
  let pending := writeIdx - readIdx
  if pending > capacity then .error (.invalidData invalidMessage) else .ok pending

namespace TypedRingBuffer

def bufferSize (r : TypedRingBuffer M) : BitVec 32 := BitVec.ofNat 32 (2 ^ r.capacityLog2)

def bufferMask (r : TypedRingBuffer M) : BitVec 32 := r.bufferSize - 1

def slotIdx (r : TypedRingBuffer M) (idx : BitVec 32) : Nat := (idx &&& r.bufferMask).toNat

def pending (r : TypedRingBuffer M) : Except RingError (BitVec 32) :=
  checkedPending r.writeIdx r.readIdx r.bufferSize "message cursor distance exceeds buffer capacity"

/-- `message_slots.add(slot_idx).read()`; `none` is an access outside the mapping. -/
def readSlot (r : TypedRingBuffer M) (slotIdx : Nat) : Option (Slot M) := r.messageSlots[slotIdx]?

/-- `message_slots.add(slot_idx).write(slot)`. -/
def writeSlot (r : TypedRingBuffer M) (slotIdx : Nat) (slot : Slot M) : Option (TypedRingBuffer M) :=
  if slotIdx < r.messageSlots.length then
    some { r with messageSlots := r.messageSlots.set slotIdx slot, slots_length := by rw [List.length_set, r.slots_length] }
  else none

/-- What an operation leaves and returns; `none` when it accesses a slot outside the mapping. -/
abbrev Outcome (M α : Type) := Option (TypedRingBuffer M × Except RingError α)

def bufferIsDestroyed : RingError := .brokenPipe "buffer is destroyed"

/-- Store the slot behind the newest message and publish it. -/
def commit (r : TypedRingBuffer M) (slot : Slot M) : Option (TypedRingBuffer M) :=
  (r.writeSlot (r.slotIdx r.writeIdx) slot).map fun r => { r with writeIdx := r.writeIdx + 1 }

variable [WireSafe M]

def tryWriteMessage (r : TypedRingBuffer M) (payload : M) : Outcome M Bool :=
  if r.isDestroyed then some (r, .error bufferIsDestroyed)
  else
    match r.pending with
    | .error error => some (r, .error error)
    | .ok pending =>
      if pending = r.bufferSize then some (r, .ok false)
      else (r.commit (Slot.of payload)).map fun r => (r, .ok true)

def writeMessageOverwrite (r : TypedRingBuffer M) (payload : M) : Outcome M Unit :=
  if r.isDestroyed then some (r, .error bufferIsDestroyed)
  else
    match r.pending with
    | .error error => some (r, .error error)
    | .ok pending =>
      let r := if pending = r.bufferSize then { r with readIdx := r.readIdx + 1 } else r
      (r.commit (Slot.of payload)).map fun r => (r, .ok ())

def checkSlot (slot : Slot M) (mismatch : String) : Except RingError (Option M) :=
  if slot.intact then .ok (some slot.payload) else .error (.invalidData mismatch)

def tryReadNextMessage (r : TypedRingBuffer M) : Outcome M (Option M) :=
  if r.isDestroyed then some (r, .ok none)
  else
    match r.pending with
    | .error error => some (r, .error error)
    | .ok pending =>
      if pending = 0 then some (r, .ok none)
      else
        (r.readSlot (r.slotIdx r.readIdx)).map fun slot =>
          ({ r with readIdx := r.readIdx + 1 }, checkSlot slot "message checksum mismatch")

def tryReadLatestMessage (r : TypedRingBuffer M) : Outcome M (Option M) :=
  if r.isDestroyed then some (r, .ok none)
  else
    match r.pending with
    | .error error => some (r, .error error)
    | .ok pending =>
      if pending = 0 then some (r, .ok none)
      else
        (r.readSlot (r.slotIdx (r.writeIdx - 1))).map fun slot =>
          ({ r with readIdx := r.writeIdx }, checkSlot slot "latest message checksum mismatch")

def tryPeekMessage (r : TypedRingBuffer M) : Outcome M (Option M) :=
  if r.isDestroyed then some (r, .ok none)
  else
    match r.pending with
    | .error error => some (r, .error error)
    | .ok pending =>
      if pending = 0 then some (r, .ok none)
      else (r.readSlot (r.slotIdx r.readIdx)).map fun slot => (r, checkSlot slot "message checksum mismatch")

/-- The loop of `drain_messages_into`: `remaining` slots are left, `room` intact messages still fit.
It returns the messages it appends. -/
def drainLoop : TypedRingBuffer M → Nat → Nat → Option (TypedRingBuffer M × List M)
  | r, 0, _ => some (r, [])
  | r, _ + 1, 0 => some (r, [])
  | r, remaining + 1, room + 1 =>
    match r.readSlot (r.slotIdx r.readIdx) with
    | none => none
    | some slot =>
      let r := { r with readIdx := r.readIdx + 1 }
      if slot.intact then (drainLoop r remaining room).map fun (r, messages) => (r, slot.payload :: messages)
      else drainLoop r remaining (room + 1)

/-- `drain_messages_into`: the buffer it leaves beside the count it returns. -/
def drainMessagesInto (r : TypedRingBuffer M) (output : List M) (max : Nat) :
    Option (TypedRingBuffer M × List M × Except RingError Nat) :=
  if max = 0 || r.isDestroyed then some (r, output, .ok 0)
  else
    match r.pending with
    | .error error => some (r, output, .error error)
    | .ok pending =>
      (r.drainLoop pending.toNat max).map fun (r, messages) => (r, output ++ messages, .ok messages.length)

/-! ## Calls -/

/-- A call of either process, or bytes another process writes over a slot. -/
inductive Call (M : Type)
  | tryWriteMessage (payload : M)
  | writeMessageOverwrite (payload : M)
  | tryReadNextMessage
  | tryReadLatestMessage
  | tryPeekMessage
  | drainMessagesInto (output : List M) (max : Nat)
  | corrupt (slotIdx : Nat) (slot : Slot M)

inductive Reply (M : Type)
  | written (result : Except RingError Bool)
  | overwritten (result : Except RingError Unit)
  | message (result : Except RingError (Option M))
  | drained (output : List M) (result : Except RingError Nat)
  | corrupted
  /-- An access outside the mapping. -/
  | fault
deriving DecidableEq

def reply {M α : Type} (r : TypedRingBuffer M) (wrap : Except RingError α → Reply M) : Outcome M α → TypedRingBuffer M × Reply M
  | none => (r, .fault)
  | some (r, result) => (r, wrap result)

def step (r : TypedRingBuffer M) : Call M → TypedRingBuffer M × Reply M
  | .tryWriteMessage payload => reply r .written (r.tryWriteMessage payload)
  | .writeMessageOverwrite payload => reply r .overwritten (r.writeMessageOverwrite payload)
  | .tryReadNextMessage => reply r .message r.tryReadNextMessage
  | .tryReadLatestMessage => reply r .message r.tryReadLatestMessage
  | .tryPeekMessage => reply r .message r.tryPeekMessage
  | .drainMessagesInto output max =>
    match r.drainMessagesInto output max with
    | none => (r, .fault)
    | some (r, output, result) => (r, .drained output result)
  | .corrupt slotIdx slot => ((r.writeSlot slotIdx slot).getD r, .corrupted)

end TypedRingBuffer

end Jwm.Ipc
