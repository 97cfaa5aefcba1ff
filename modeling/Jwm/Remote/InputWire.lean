/-
Input on the wire (`remote/messages.rs`, `remote/x11_input.rs`): a batch of input events, and its
envelope with the source and geometry it is meant for.
-/
import Jwm.Data.ExactCodec

namespace Jwm.Remote

/-! ## Events -/

inductive InputEvent where
  | pointer (x y : BitVec 16)
  | key (keycode : Byte) (pressed : Bool)
  | button (button : Byte) (pressed : Bool)
  | releaseAll
deriving DecidableEq

def inputTagPointer : Byte := 1
def inputTagKey : Byte := 2
def inputTagButton : Byte := 3
def inputTagReleaseAll : Byte := 4
def pointerInputLen : Nat := 1 + 2 + 2
def minX11Keycode : Nat := 8
def maxInputBatchEvents : Nat := 128
def maxInputBatchPayloadLen : Nat := 1 + maxInputBatchEvents * pointerInputLen
def maxSourceInputPayloadLen : Nat := 16 + maxInputBatchPayloadLen

def batchEventLen : InputEvent → Nat
  | .pointer .. => pointerInputLen
  | .key .. | .button .. => 3
  | .releaseAll => 1

def validateBatchEvent : InputEvent → Except String Unit
  | .pointer x y =>
    rejectIf (x.toNat > 2 ^ 15 - 1 || y.toNat > 2 ^ 15 - 1) "remote input batch pointer coordinate is out of range"
  | .key keycode _ => rejectIf (keycode.toNat < minX11Keycode) "remote input batch X11 keycode is out of range"
  | .button button _ => rejectIf (button = 0) "remote input batch button is zero"
  | .releaseAll => .ok ()

/-- `u8::from(pressed)`. -/
def edgeByte (pressed : Bool) : Byte := if pressed then 1 else 0

def encodeEvent : InputEvent → List Byte
  | .pointer x y => [inputTagPointer] ++ (wordBytes x ++ wordBytes y)
  | .key keycode pressed => [inputTagKey, keycode, edgeByte pressed]
  | .button button pressed => [inputTagButton, button, edgeByte pressed]
  | .releaseAll => [inputTagReleaseAll]

/-! ## Batches -/

/-- The closure of `encode_input_batch_into`: everything is validated before a byte is written. -/
def writeInputBatch (events : List InputEvent) (output : List Byte) : Except String (List Byte) := do
  rejectIf (events.isEmpty || events.length > maxInputBatchEvents)
    s!"remote input batch contains {events.length} events; expected 1..={maxInputBatchEvents}"
  let payloadLen ← events.foldlM (fun payloadLen event => do
    validateBatchEvent event
    return payloadLen + batchEventLen event) 1
  rejectIf (payloadLen > maxInputBatchPayloadLen) "remote input batch exceeds its payload limit"
  return events.foldl (fun output event => output ++ encodeEvent event) (output ++ [BitVec.ofNat 8 events.length])

def encodeInputBatchInto (events : List InputEvent) (output : List Byte) : List Byte × Except String Unit :=
  let output := output.take 0
  match writeInputBatch events output with
  | .ok output => (output, .ok ())
  | .error error => (output.take 0, .error error)

def encodeInputBatch (events : List InputEvent) : Except String (List Byte) :=
  match encodeInputBatchInto events [] with
  | (payload, .ok ()) => .ok payload
  | (_, .error error) => .error error

def takeByte (payload : List Byte) (offset : Nat) : Except String (Byte × Nat) :=
  match payload[offset]? with
  | some value => .ok (value, offset + 1)
  | none => .error "remote input batch is truncated"

def takeU16 (payload : List Byte) (offset : Nat) : Except String (BitVec 16 × Nat) := do
  let (high, offset) ← takeByte payload offset
  let (low, offset) ← takeByte payload offset
  return (readWord 16 [high, low], offset)

def decodeEdge (edge : Byte) : Except String Bool :=
  if edge = 0 then .ok false
  else if edge = 1 then .ok true
  else .error "remote input batch edge is neither pressed nor released"

/-- One round of the loop of `decode_input_batch`: the event and the next offset. -/
def decodeEvent (payload : List Byte) (offset : Nat) : Except String (InputEvent × Nat) := do
  let (tag, offset) ← takeByte payload offset
  if tag = inputTagPointer then
    let (x, offset) ← takeU16 payload offset
    let (y, offset) ← takeU16 payload offset
    return (.pointer x y, offset)
  else if tag = inputTagKey then
    let (keycode, offset) ← takeByte payload offset
    let (edge, offset) ← takeByte payload offset
    let pressed ← decodeEdge edge
    return (.key keycode pressed, offset)
  else if tag = inputTagButton then
    let (button, offset) ← takeByte payload offset
    let (edge, offset) ← takeByte payload offset
    let pressed ← decodeEdge edge
    return (.button button pressed, offset)
  else if tag = inputTagReleaseAll then
    return (.releaseAll, offset)
  else .error "remote input batch contains an unknown tag"

def decodeEvents (payload : List Byte) : Nat → Nat → Except String (List InputEvent × Nat)
  | 0, offset => .ok ([], offset)
  | count + 1, offset => do
    let (event, offset) ← decodeEvent payload offset
    validateBatchEvent event
    let (events, offset) ← decodeEvents payload count offset
    return (event :: events, offset)

def decodeInputBatch (payload : List Byte) : Except String (List InputEvent) := do
  rejectIf (payload.isEmpty || payload.length > maxInputBatchPayloadLen)
    s!"remote input batch payload has invalid length {payload.length}; maximum is {maxInputBatchPayloadLen}"
  let count := (payload.getD 0 0).toNat
  rejectIf (count = 0 || count > maxInputBatchEvents)
    s!"remote input batch contains {count} events; expected 1..={maxInputBatchEvents}"
  let (events, offset) ← decodeEvents payload count 1
  rejectIf (offset ≠ payload.length) "remote input batch has trailing bytes"
  return events

/-! ## The source envelope -/

/-- The batch is written first and then moved behind its two epochs. -/
def encodeSourceInputInto (sourceEpoch geometryEpoch : BitVec 64) (events : List InputEvent) (output : List Byte) :
    List Byte × Except String Unit :=
  let output := output.take 0
  if sourceEpoch = 0 || geometryEpoch = 0 then (output, .error "zero input source or geometry epoch")
  else
    match encodeInputBatchInto events output with
    | (output, .error error) => (output, .error error)
    | (output, .ok ()) =>
      let resized := output ++ List.replicate 16 0
      (blit resized [(16, output), (0, wordBytes sourceEpoch), (8, wordBytes geometryEpoch)], .ok ())

def encodeSourceInput (sourceEpoch geometryEpoch : BitVec 64) (events : List InputEvent) : Except String (List Byte) :=
  match encodeSourceInputInto sourceEpoch geometryEpoch events [] with
  | (output, .ok ()) => .ok output
  | (_, .error error) => .error error

def decodeSourceInput (payload : List Byte) : Except String (BitVec 64 × BitVec 64 × List InputEvent) := do
  rejectIf (payload.length < 17 || payload.length > maxSourceInputPayloadLen) "invalid source input payload length"
  let sourceEpoch := readWord 64 (slice payload 0 8)
  let geometryEpoch := readWord 64 (slice payload 8 16)
  rejectIf (sourceEpoch = 0 || geometryEpoch = 0) "zero input source or geometry epoch"
  let events ← decodeInputBatch (payload.drop 16)
  return (sourceEpoch, geometryEpoch, events)

end Jwm.Remote
