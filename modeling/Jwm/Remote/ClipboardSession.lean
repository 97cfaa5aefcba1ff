/-
A clipboard session: two workers, each with its command queue, its inbox (`ClipboardInbox::deliver`) and
its out queue (`ClipboardOutbox`), joined by links that keep order. Any action of either end may come next.
-/
import Jwm.Remote.ClipboardWorker
import Jwm.Remote.Protocol

namespace Jwm.Remote

/-! ## One end -/

/-- A worker with its command queue, and whether the session still reads for it. -/
structure End (R S : Type) where
  worker : Worker R S
  commands : BoundedQueue Command
  reading : Bool

namespace End

variable {R S : Type}

def new (options : SyncOptions) : End R S := ⟨.new options, .new commandQueueRecords commandQueueBytes, true⟩

def overloaded : String := "clipboard queue closed or overloaded"

def exceeded : String := "peer sent more clipboard data than it was allowed in flight"

/-- Queue a command that carries so many `Data` bytes. -/
def post (e : End R S) (command : Command) (dataBytes : Nat) : End R S × Except String Unit :=
  match sendCommand e.commands command with
  | (commands, true) => ({ e with commands := commands }, .ok ())
  | (commands, false) =>
    ({ e with commands := commands, worker.inFlight := e.worker.inFlight - dataBytes }, .error overloaded)

/-- `deliver` from the decoded operation on. -/
def deliverOp (e : End R S) (op : TransferOp) : End R S × Except String Unit :=
  match e.worker.options.validatePeerOp op with
  | .error error => (e, .error error)
  | .ok () =>
    match op with
    | .data _ bytes =>
      let pending := e.worker.inFlight + bytes.length
      if pending > transferWindowBytes then ({ e with commands := e.commands.close }, .error exceeded)
      else post { e with worker.inFlight := pending } (.peer op) bytes.length
    | _ => e.post (.peer op) 0

end End

def decodeClipboard (payload : List Byte) : Except String (List Byte) :=
  if payload.length > maxTextBytes then
    .error ("clipboard payload is " ++ toString payload.length ++ " bytes; maximum is " ++ toString maxTextBytes)
  else if !ByteArray.validateUTF8 ⟨(payload.map UInt8.ofBitVec).toArray⟩ then
    .error "clipboard payload is not valid UTF-8"
  else .ok payload

/-- The name `{:?}` shows. -/
def MessageKind.debug : MessageKind → String
  | .hello => "Hello"
  | .helloAck => "HelloAck"
  | .frame => "Frame"
  | .pointer => "Pointer"
  | .key => "Key"
  | .button => "Button"
  | .releaseAll => "ReleaseAll"
  | .close => "Close"
  | .heartbeat => "Heartbeat"
  | .frameAck => "FrameAck"
  | .inputBatch => "InputBatch"
  | .viewport => "Viewport"
  | .clipboard => "Clipboard"
  | .clipboardTransfer => "ClipboardTransfer"
  | .cursorShape => "CursorShape"
  | .cursorPosition => "CursorPosition"
  | .sourceCatalog => "SourceCatalog"
  | .sourceRequest => "SourceRequest"
  | .sourceChanged => "SourceChanged"

namespace End

variable {R S : Type}

/-- `ClipboardInbox::deliver`: hand one peer record to the worker. -/
def deliver (e : End R S) (kind : MessageKind) (payload : List Byte) : End R S × Except String Unit :=
  match kind with
  | .clipboard =>
    if !e.worker.options.receive then (e, .error "clipboard receive direction was not negotiated")
    else
      match decodeClipboard payload with
      | .error error => (e, .error error)
      | .ok value => e.post (.peerText value) 0
  | .clipboardTransfer =>
    match TransferOp.decode payload with
    | .error error => (e, .error error)
    | .ok op => e.deliverOp op
  | other => (e, .error (other.debug ++ " is not a clipboard record"))

end End

/-! ## Records on a link -/

namespace Outgoing

/-- `Outgoing::kind`. -/
def kind : Outgoing → MessageKind
  | .clipboard _ => .clipboard
  | .transfer _ => .clipboardTransfer

/-- `Outgoing::payload`. -/
def payload : Outgoing → List Byte
  | .clipboard payload => payload
  | .transfer op => op.encode

end Outgoing

namespace End

variable {R S : Type}

/-- `deliver` of a record that a worker queued. -/
def deliverRecord (e : End R S) (record : Outgoing) : End R S × Except String Unit :=
  match record with
  | .clipboard payload => e.deliver .clipboard payload
  | .transfer op => e.deliverOp op

theorem deliver_record (e : End R S) {record : Outgoing} (h : ∀ op, record = .transfer op → op.Fits) :
    e.deliver record.kind record.payload = e.deliverRecord record := by
  cases record with
  | clipboard payload => rfl
  | transfer op =>
    unfold deliver Outgoing.kind Outgoing.payload
    dsimp only
    rw [TransferOp.decode_encode (h op rfl)]
    rfl

end End

/-! ## The session -/

/-- Both ends, and the records on the links towards each. -/
structure Session (R S : Type) where
  left : End R S
  right : End R S
  toRight : List Outgoing
  toLeft : List Outgoing

inductive Side where
  | left
  | right
deriving DecidableEq

/-- What may happen at an end. -/
inductive Action where
  /-- `forward_captures`: something was copied on this machine. -/
  | copy (copied : CopiedClipboard)
  | pump
  /-- The worker takes a command and applies it. -/
  | apply
  /-- The session writer takes a record from the out queue and sends it. -/
  | drain
  /-- The session reader takes a record from the link and delivers it. -/
  | deliver
  /-- `Stop` or `LocalClosed`. -/
  | stop
  /-- The outbox is dropped. -/
  | disconnect
  /-- `run_guarded` ends, on its own or by a panic. -/
  | exit
deriving DecidableEq

namespace Session

variable {R S : Type}

def new (left right : SyncOptions) : Session R S := ⟨.new left, .new right, [], []⟩

def swap (s : Session R S) : Session R S := ⟨s.right, s.left, s.toLeft, s.toRight⟩

/-- An action of the left end, with the answer of `deliver`. The check of the queues before every turn is left out, so it may
take more turns here. -/
def stepLeft (env : Surroundings R S) (s : Session R S) (action : Action) : Session R S × Except String Unit :=
  match action with
  | .copy copied => ({ s with left.commands := (sendCommand s.left.commands (.local copied)).1 }, .ok ())
  | .pump => ({ s with left.worker := s.left.worker.pump env }, .ok ())
  | .apply =>
    match s.left.commands.pop with
    | none => (s, .ok ())
    | some (command, commands) =>
      ({ s with left.worker := s.left.worker.apply env command, left.commands := commands }, .ok ())
  | .drain =>
    match s.left.worker.out.pop with
    | none => (s, .ok ())
    | some (record, out) => ({ s with left.worker.out := out, toRight := s.toRight ++ [record] }, .ok ())
  | .deliver =>
    match s.left.reading, s.toLeft with
    | true, record :: toLeft =>
      let (left, answer) := s.left.deliverRecord record
      -- an error ends the session
      ({ s with left := { left with reading := answer.isOk }, toLeft := toLeft }, answer)
    | _, _ => (s, .ok ())
  | .stop => ({ s with left.commands := s.left.commands.close }, .ok ())
  | .disconnect => ({ s with left.worker.out := s.left.worker.out.close }, .ok ())
  | .exit =>
    let worker := { s.left.worker with out := s.left.worker.out.close }
    ({ s with left.worker := worker.cleanup env, left.commands := s.left.commands.close }, .ok ())

def step (envs : Side → Surroundings R S) (s : Session R S) (e : Side × Action) : Session R S × Except String Unit :=
  match e.1 with
  | .left => s.stepLeft (envs .left) e.2
  | .right =>
    let (s, answer) := s.swap.stepLeft (envs .right) e.2
    (s.swap, answer)

end Session

end Jwm.Remote
