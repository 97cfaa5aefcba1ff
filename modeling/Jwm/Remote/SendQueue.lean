/-
The viewer's send queue (`remote/sender.rs`): control records overtake bulk ones, a `ReleaseAll` drops the unsent
input before it, and the latest-state records are replaced in place. The held keys and buttons an input history
leaves (`remote/x11_input.rs`).
-/
import Jwm.Data.Fence
import Jwm.Remote.InputExact
import Jwm.Remote.Protocol

namespace Jwm.Remote.Sender

/-! ## Records -/

def controlRecords : Nat := 128
def controlBytesLimit : Nat := 128 * 1024
def bulkRecords : Nat := 32
def maxClipboardBytes : Nat := 256 * 1024
def bulkBytesLimit : Nat := maxClipboardBytes + 2 * 1024 * 1024

structure Record where
  kind : MessageKind
  payload : List Byte
deriving DecidableEq

def payloadBytes (records : List Record) : Nat := (records.map (·.payload.length)).sum

structure Queue where
  control : List Record := []
  bulk : List Record := []
  controlBytes : Nat := 0
  bulkBytes : Nat := 0
  closing : Bool := false
  stopped : Bool := false
  error : Option String := none
  inputScope : Option (BitVec 64 × BitVec 64) := none

def expected : MessageKind → Option Nat
  | .heartbeat => some 0
  | .frameAck => some 16
  | .viewport => some 4
  | _ => none

def latestState : MessageKind → Bool
  | .frameAck | .viewport | .heartbeat => true
  | _ => false

def replaceFirst (kind : MessageKind) (payload : List Byte) : List Record → List Record
  | [] => []
  | r :: records => if r.kind == kind then { r with payload := payload } :: records else r :: replaceFirst kind payload records

def isBulk : MessageKind → Bool
  | .clipboard | .clipboardTransfer => true
  | _ => false

def overloaded : String := "remote send queue overloaded; ending session to preserve input and clipboard ordering"

/-- `queue.len() >= count_limit || payload.len() > byte_limit.saturating_sub(*bytes)`. -/
def full (queue : List Record) (bytes countLimit byteLimit : Nat) (payload : List Byte) : Bool :=
  queue.length ≥ countLimit || payload.length > byteLimit - bytes

namespace Queue

def check (q : Queue) : Except String Unit :=
  match q.error with
  | some error => .error error
  | none => if q.stopped || q.closing then .error "remote sender stopped" else .ok ()

/-! ## Pushing -/

/-- `ReleaseAll` is a fence: unsent input before the last one is discarded, and the edges of this batch
after it are kept. The result is the payload to queue. -/
def fence (q : Queue) (kind : MessageKind) (payload : List Byte) : Queue × Except String (List Byte) :=
  if kind = .inputBatch then
    match decodeSourceInput payload with
    | .error error => (q, .error error)
    | .ok (source, geometry, events) =>
      let q := { q with inputScope := some (source, geometry) }
      match rposition (· == .releaseAll) events with
      | some index =>
        let control := q.control.filter (·.kind != .inputBatch)
        let q := { q with control := control, controlBytes := payloadBytes control }
        match encodeSourceInputInto source geometry (events.drop index) [] with
        | (_, .error error) => (q, .error error)
        | (fencedPayload, .ok ()) => (q, .ok fencedPayload)
      | none => (q, .ok payload)
  else (q, .ok payload)

/-- The rest of `push`, after the fence. -/
def enqueue (q : Queue) (kind : MessageKind) (payload : List Byte) : Queue × Except String Unit :=
  match if latestState kind then q.control.find? (·.kind == kind) else none with
  | some record =>
    ({ q with
        controlBytes := q.controlBytes - record.payload.length + payload.length
        control := replaceFirst kind payload q.control }, .ok ())
  | none =>
    if isBulk kind then
      if full q.bulk q.bulkBytes bulkRecords bulkBytesLimit payload then (q, .error overloaded)
      else ({ q with bulkBytes := q.bulkBytes + payload.length, bulk := q.bulk ++ [⟨kind, payload⟩] }, .ok ())
    else if full q.control q.controlBytes controlRecords controlBytesLimit payload then (q, .error overloaded)
    else ({ q with controlBytes := q.controlBytes + payload.length, control := q.control ++ [⟨kind, payload⟩] }, .ok ())

def push (q : Queue) (kind : MessageKind) (payload : List Byte) : Queue × Except String Unit :=
  match q.check with
  | .error error => (q, .error error)
  | .ok () =>
    if (expected kind).any (payload.length != ·) then (q, .error "invalid control record size")
    else
      match q.fence kind payload with
      | (q, .error error) => (q, .error error)
      | (q, .ok payload) => q.enqueue kind payload

/-! ## Popping and closing -/

def pop (q : Queue) : Queue × Option Record :=
  match q.control with
  | record :: control => ({ q with control := control, controlBytes := q.controlBytes - record.payload.length }, some record)
  | [] =>
    match q.bulk with
    | record :: bulk => ({ q with bulk := bulk, bulkBytes := q.bulkBytes - record.payload.length }, some record)
    | [] => (q, none)

/-- The shutdown path needs no free slot. `none` is the panic of `expect`. -/
def close (q : Queue) (inputEnabled : Bool) : Option Queue :=
  let q := { q with control := [], bulk := [], controlBytes := 0, bulkBytes := 0 }
  let finish (q : Queue) : Queue := { q with control := q.control ++ [⟨.close, []⟩], closing := true }
  if inputEnabled then
    let scope := q.inputScope.getD (1, 1)
    match encodeSourceInputInto scope.1 scope.2 [.releaseAll] [] with
    | (release, .ok ()) =>
      some (finish { q with controlBytes := release.length, control := q.control ++ [⟨.inputBatch, release⟩] })
    | (_, .error _) => none
  else some (finish q)

end Queue

/-! ## Runs -/

inductive Call where
  | push (kind : MessageKind) (payload : List Byte)
  | pop

inductive Answer where
  | pushed (result : Except String Unit)
  | popped (record : Option Record)

def Queue.call (q : Queue) : Call → Queue × Answer
  | .push kind payload => ((q.push kind payload).1, .pushed (q.push kind payload).2)
  | .pop => (q.pop.1, .popped q.pop.2)

def inputEvents (record : Record) : List InputEvent :=
  if record.kind = .inputBatch then
    match decodeSourceInput record.payload with
    | .ok (_, _, events) => events
    | .error _ => []
  else []

/-- The input events of the pushes that returned `Ok`. -/
def acceptedEvents (history : List (Call × Answer)) : List InputEvent :=
  history.flatMap fun
    | (.push kind payload, .pushed (.ok ())) => inputEvents ⟨kind, payload⟩
    | _ => []

def poppedRecords (history : List (Call × Answer)) : List Record :=
  history.flatMap fun
    | (.pop, .popped (some record)) => [record]
    | _ => []

/-- The input events of the popped records, then of the queued ones. -/
def deliveredEvents (history : List (Call × Answer)) (q : Queue) : List InputEvent :=
  (poppedRecords history ++ q.control ++ q.bulk).flatMap inputEvents

/-! ## Held keys and buttons -/

inductive HeldInput where
  | key (keycode : Byte)
  | button (logical physical : Byte)
deriving DecidableEq

/-- Buttons are identified by their logical number, which is what a release names. -/
def sameInput : HeldInput → HeldInput → Bool
  | .key left, .key right => left == right
  | .button left _, .button right _ => left == right
  | _, _ => false

def recordEdge (held : List HeldInput) (input : HeldInput) (pressed : Bool) : List HeldInput :=
  if pressed then
    if held.any (sameInput · input) then held else held ++ [input]
  else
    match held.findIdx? (sameInput · input) with
    | some index => held.eraseIdx index
    | none => held

/-- `PressedState::record_success`, with the physical button of the event. -/
def recordSuccess (held : List HeldInput) (event : InputEvent) (physical : Option Byte) : List HeldInput :=
  match event with
  | .key keycode pressed => recordEdge held (.key keycode) pressed
  | .button button pressed => recordEdge held (.button button (physical.getD button)) pressed
  | .pointer .. => held
  | .releaseAll => []

/-- What is held after a history, the buttons resolved by `physical`. -/
def replay (physical : InputEvent → Option Byte) (held : List HeldInput) (events : List InputEvent) : List HeldInput :=
  events.foldl (fun held event => recordSuccess held event (physical event)) held

end Jwm.Remote.Sender
