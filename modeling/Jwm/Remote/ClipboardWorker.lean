/-
The clipboard worker of one session end (`remote/clipboard_sync.rs`): its queues, the transfer it sends,
the one it receives, and the flow control between them. Methods that mutate the worker return the
worker they leave. What the worker asks of its surroundings (the local clipboard, the disk, the copied
files) is a parameter that answers each call as it likes; status lines are left out.
-/
import Jwm.Data.BoundedQueue
import Jwm.Remote.ClipboardWire

namespace Jwm.Remote

/-! ## Queues -/

inductive Command where
  | local (copied : CopiedClipboard)
  | localClosed
  | peerText (value : List Byte)
  | peer (op : TransferOp)
  | stop
deriving DecidableEq

namespace Command

def isLocal : Command → Bool
  | .local _ => true
  | _ => false

/-- What a command counts for in the queue, `none` for one that never fits. -/
def size : Command → Option Nat
  | .local copied => copied.retainedBytes
  | .peerText value => some value.length
  | .peer (.data _ bytes) => some bytes.length
  | _ => some 32

end Command

/-- A record for the session writer to send. -/
inductive Outgoing where
  | clipboard (payload : List Byte)
  | transfer (op : TransferOp)
deriving DecidableEq

namespace Outgoing

def size : Outgoing → Nat
  | .clipboard payload => payload.length
  | .transfer (.data _ bytes) => 5 + bytes.length
  | .transfer _ => 32

def ackId : Outgoing → Option Nat
  | .transfer (.ack id _) => some id
  | _ => none

end Outgoing

def commandQueueRecords : Nat := 64
def commandQueueBytes : Nat := maxSharedImageBytes + transferWindowBytes
def outgoingQueueRecords : Nat := 64
def outgoingQueueBytes : Nat := 2 * transferWindowBytes

/-- `BoundedQueue<Command>::send`: shutdown has a reserved path, and only the latest local copy is kept. -/
def sendCommand (q : BoundedQueue Command) (command : Command) : BoundedQueue Command × Bool :=
  match command with
  | .stop | .localClosed => (q.close, true)
  | command =>
    match command.size with
    | some size => q.push command size fun old => command.isLocal && old.isLocal
    | none => if q.closed then (q, false) else (q.close, false)

/-- `BoundedQueue<Outgoing>::send`: an acknowledgement replaces the older ones of its transfer. -/
def sendOutgoing (q : BoundedQueue Outgoing) (record : Outgoing) : BoundedQueue Outgoing × Bool :=
  q.push record record.size fun old => record.ackId.isSome && old.ackId == record.ackId

theorem closed_of_sendOutgoing {q : BoundedQueue Outgoing} (h : q.closed = true) (record : Outgoing) :
    (sendOutgoing q record).1.closed = true := by
  rcases q.push_cases record record.size (fun old => record.ackId.isSome && old.ackId == record.ackId) with
    ⟨_, _, hopen, _⟩ | ⟨_, hclosed⟩
  · rw [h] at hopen
    cases hopen
  · exact hclosed

/-! ## The worker -/

inductive Fingerprint where
  | text (value : List Byte)
  | png (hash : Nat)
  | files (paths : List Path)
deriving DecidableEq

/-- `Manifest` of copied files, as far as the worker sees it, and its reader. -/
structure CopiedFiles (R : Type) where
  reader : R
  streamBytes : Nat
  entries : Nat
  items : Nat

/-- The surroundings of a worker. Each call carries its number, so answers may change over time. -/
structure Surroundings (R S : Type) where
  /-- `ClipboardTarget::serve`. -/
  serve (call : Nat) (request : RemoteServe) : Bool
  pngHash (png : List Byte) : Nat
  /-- `image_offer_to_png_within`. -/
  imageOfferToPng (png : List Byte) : Option (List Byte)
  /-- `Manifest::build`. -/
  build (call : Nat) (paths : List Path) (limit : Nat) : Except String (CopiedFiles R)
  /-- `ManifestReader::next_chunk`. -/
  nextChunk (call : Nat) (reader : R) (max : Nat) : Except String (List Byte × R)
  /-- Creating the staging area, where there is none. -/
  createStaging (call : Nat) : Except String Unit
  availableBytes (call : Nat) : Option Nat
  /-- `Staging::begin` and `ArchiveReceiver::new`. -/
  beginStaging (call : Nat) (entries : Nat) : Except String S
  /-- `ArchiveReceiver::feed`. -/
  feed (call : Nat) (archive : S) (bytes : List Byte) : Except String S
  /-- `ArchiveReceiver::finish`. -/
  finish (call : Nat) (archive : S) : Except String (List Path)
  humanBytes (bytes : Nat) : String

inductive Source (R : Type) where
  | image (png : List Byte)
  | files (reader : R)

structure Sending (R : Type) where
  id : Nat
  source : Source R
  length : Nat
  /-- Session-wide `Data` offset at which this transfer starts. -/
  start : Nat
  sent : Nat
  ended : Bool

inductive Sink (S : Type) where
  | image (png : List Byte)
  | files (archive : S)

structure Receiving (S : Type) where
  id : Nat
  token : Nat
  sink : Sink S
  length : Nat
  received : Nat

/-- `call` counts the calls to the surroundings, and `requests` are those of them that went to the
local clipboard, with the answers. -/
structure Worker (R S : Type) where
  out : BoundedQueue Outgoing
  inFlight : Nat
  options : SyncOptions
  staging : Bool
  nextId : Nat
  nextToken : Nat
  sending : Option (Sending R)
  receiving : Option (Receiving S)
  pendingToken : Option Nat
  sentTotal : Nat
  ackedTotal : Nat
  consumedTotal : Nat
  lastReceived : Option Fingerprint
  call : Nat
  requests : List (RemoteServe × Bool)

namespace Worker

variable {R S : Type}

def new (options : SyncOptions) : Worker R S where
  out := .new outgoingQueueRecords outgoingQueueBytes
  inFlight := 0
  options := options
  staging := false
  nextId := 1
  nextToken := 1
  sending := none
  receiving := none
  pendingToken := none
  sentTotal := 0
  ackedTotal := 0
  consumedTotal := 0
  lastReceived := none
  call := 0
  requests := []

def queue (w : Worker R S) (record : Outgoing) : Worker R S := { w with out := (sendOutgoing w.out record).1 }

def queueOp (w : Worker R S) (op : TransferOp) : Worker R S := w.queue (.transfer op)

def startSending (w : Worker R S) (kind : TransferKind) (source : Source R) (length entries items : Nat) : Worker R S :=
  let id := w.nextId
  let w := { w with nextId := max ((w.nextId + 1) % 2 ^ 32) 1 }
  let w := w.queueOp (.begin id kind length entries items)
  { w with sending := some { id, source, length, start := w.sentTotal, sent := 0, ended := false } }

def abortSending (w : Worker R S) : Worker R S :=
  match w.sending with
  | some sending => { w with sending := none }.queueOp (.cancel sending.id)
  | none => w

def cancelSending (w : Worker R S) : Worker R S :=
  match w.sending with
  | some sending =>
    let finished := sending.ended && w.ackedTotal ≥ sending.start + sending.length
    let w := { w with sending := none }
    if !finished then w.queueOp (.cancel sending.id) else w
  | none => w

variable (env : Surroundings R S)

/-- Hand a request to the local clipboard. A rejected one is terminal. -/
def serve (w : Worker R S) (request : RemoteServe) : Worker R S × Bool :=
  if w.out.closed then (w, false)
  else if request.retainedBytes.isNone then ({ w with out := w.out.close }, false)
  else
    let answer := env.serve w.call request
    let w := { w with call := w.call + 1, requests := w.requests ++ [(request, answer)] }
    if answer then (w, true) else ({ w with out := w.out.close }, false)

/-- Stop receiving; `refuse` tells the sender to stop too. -/
def dropReceiving (w : Worker R S) (refuse : Bool) : Worker R S :=
  match w.receiving with
  | none => w
  | some receiving =>
    let w := if refuse then w.queueOp (.refuse receiving.id) else w
    let w := { w with receiving := none }
    match w.serve env (.abandon receiving.token) with
    | (w, true) => { w with pendingToken := none }
    | (w, false) => w

def shareFiles (w : Worker R S) (paths : List Path) : Worker R S :=
  let result := env.build w.call paths w.options.fileLimit
  let w := { w with call := w.call + 1 }
  match result with
  | .ok manifest => w.startSending .files (.files manifest.reader) manifest.streamBytes manifest.entries manifest.items
  | .error _ => w

def fingerprint : CopiedClipboard → Fingerprint
  | .text value => .text value
  | .png image => .png (env.pngHash image)
  | .files paths => .files paths

def shareLocal (w : Worker R S) (copied : CopiedClipboard) : Worker R S :=
  let unshared := match copied with
    | .text _ => false
    | .png _ => !w.options.images
    | .files _ => !w.options.files || w.options.fileLimit = 0
  if !w.options.send || unshared then w
  else if w.lastReceived = some (fingerprint env copied) then w
  else
    let w := (w.cancelSending).dropReceiving env true
    if w.out.closed then w
    else
      match copied with
      | .text value => if value.length > maxTextBytes then w else w.queue (.clipboard value)
      | .png image => w.startSending .image (.image image) image.length 0 1
      | .files paths => w.shareFiles env paths

def readChunk (w : Worker R S) (sending : Sending R) (room : Nat) : Worker R S × Except String (List Byte × Source R) :=
  match sending.source with
  | .image png => (w, .ok (slice png sending.sent (sending.sent + room), .image png))
  | .files reader =>
    ({ w with call := w.call + 1 }, (env.nextChunk w.call reader room).map fun c => (c.1, .files c.2))

/-- The loop of `pump`; every round but the last sends at least a byte. -/
def pumpLoop : Nat → Worker R S → Worker R S
  | 0, w => w
  | fuel + 1, w =>
    match w.sending with
    | none => w
    | some sending =>
      if !sending.ended && w.sentTotal - w.ackedTotal < transferWindowBytes then
        let room := min (min (transferWindowBytes - (w.sentTotal - w.ackedTotal)) (sending.length - sending.sent)) transferChunkBytes
        if room = 0 then { w with sending := some { sending with ended := true } }.queueOp (.finish sending.id)
        else
          match w.readChunk env sending room with
          | (w, .ok (bytes, source)) =>
            if bytes = [] then w.abortSending
            else
              let sent := { sending with source := source, sent := sending.sent + bytes.length }
              let w := { w with sending := some sent, sentTotal := w.sentTotal + bytes.length }
              match sendOutgoing w.out (.transfer (.data sending.id bytes)) with
              | (out, true) => pumpLoop fuel { w with out := out }
              | (out, false) => { w with out := out }
          | (w, .error _) => w.abortSending
      else w

/-- Send as much of the outgoing transfer as the window allows. -/
def pump (w : Worker R S) : Worker R S :=
  match w.sending with
  | none => w
  | some sending => w.pumpLoop env (sending.length - sending.sent + 1)

/-! ## Peer records -/

def accept (w : Worker R S) (kind : TransferKind) (length entries : Nat) : Worker R S × Except String (Sink S) :=
  if !w.options.receive then (w, .error "clipboard receive direction was not negotiated")
  else
    match kind with
    | .image =>
      if !w.options.images then (w, .error "image sharing was not negotiated")
      else if length = 0 || length > maxSharedImageBytes then
        (w, .error ("the image is larger than " ++ env.humanBytes maxSharedImageBytes))
      else (w, .ok (.image []))
    | .files =>
      if !w.options.files || w.options.fileLimit = 0 then (w, .error "file sharing was not negotiated")
      else if length > min (w.options.fileLimit + entries * 4200) u64Max then
        (w, .error ("it is larger than this machine's " ++ env.humanBytes w.options.fileLimit ++ " file limit"))
      else if entries = 0 || entries > maxEntries then (w, .error "it holds too many files")
      else
        let created := if w.staging then .ok () else env.createStaging w.call
        let w := { w with call := w.call + 1 }
        match created with
        | .error error => (w, .error ("no place to keep received files: " ++ error))
        | .ok () =>
          let available := (env.availableBytes w.call).getD u64Max
          let w := { w with staging := true, call := w.call + 1 }
          if available < min (length + reservedFreeBytes) u64Max then
            (w, .error ("only " ++ env.humanBytes available ++ " free for " ++ env.humanBytes length))
          else
            let begun := env.beginStaging w.call entries
            let w := { w with call := w.call + 1 }
            match begun with
            | .error error => (w, .error ("could not create a staging directory: " ++ error))
            | .ok archive => (w, .ok (.files archive))

def receiveChunk (w : Worker R S) (id : Nat) (bytes : List Byte) : Worker R S × Except String Unit :=
  match w.receiving.filter (·.id = id) with
  | none => (w, .ok ())
  | some receiving =>
    if receiving.received + bytes.length > receiving.length then (w, .error "the copy was longer than announced")
    else
      match receiving.sink with
      | .image png =>
        ({ w with receiving := some { receiving with
            sink := .image (png ++ bytes), received := receiving.received + bytes.length } }, .ok ())
      | .files archive =>
        let fed := env.feed w.call archive bytes
        let w := { w with call := w.call + 1 }
        match fed with
        | .error error => (w, .error error)
        | .ok archive =>
          ({ w with receiving := some { receiving with
              sink := .files archive, received := receiving.received + bytes.length } }, .ok ())

/-- What is served for a transfer that ended, and the fingerprint of it. -/
def usable (w : Worker R S) (receiving : Receiving S) : Worker R S × Except String (RemoteServe × Fingerprint) :=
  let complete := receiving.received = receiving.length
  match receiving.sink with
  | .image png =>
    if complete then
      match env.imageOfferToPng png with
      | some png => (w, .ok (.fulfilPng receiving.token png, .png (env.pngHash png)))
      | none => (w, .error "the image was not a valid PNG")
    else (w, .error "the copy ended early")
  | .files archive =>
    if complete then
      let finished := env.finish w.call archive
      let w := { w with call := w.call + 1 }
      match finished with
      | .ok paths =>
        if (RemoteServe.fulfilFiles receiving.token paths).retainedBytes.isNone then
          (w, .error "the received file list is too large")
        else (w, .ok (.fulfilFiles receiving.token paths, .files paths))
      | .error error => (w, .error error)
    else (w, .error "the copy ended early")

def finishReceiving (w : Worker R S) (id : Nat) : Worker R S :=
  match w.receiving.filter (·.id = id) with
  | none => w
  | some receiving =>
    let w := { w with receiving := none }
    match w.usable env receiving with
    | (w, .ok (request, fingerprint)) =>
      let w := { w with lastReceived := some fingerprint }
      match w.serve env request with
      | (w, true) => { w with pendingToken := none }
      | (w, false) => w
    | (w, .error _) =>
      match w.serve env (.abandon receiving.token) with
      | (w, true) => { w with pendingToken := none }
      | (w, false) => w

/-- `Begin` of a peer's transfer. -/
def onBegin (w : Worker R S) (id : Nat) (kind : TransferKind) (length entries : Nat) : Worker R S :=
  let w := (w.cancelSending).dropReceiving env false
  if w.out.closed then w
  else
    let w := { w with lastReceived := none }
    match w.accept env kind length entries with
    | (w, .ok sink) =>
      let token := w.nextToken
      let w := { w with
        nextToken := w.nextToken + 1
        receiving := some { id, token, sink, length, received := 0 }
        pendingToken := some token }
      (w.serve env (.announce token (match kind with | .image => .png | .files => .files))).1
    | (w, .error _) => w.queueOp (.refuse id)

/-- `Data`: consumed or discarded, the window reopens either way. -/
def onData (w : Worker R S) (id : Nat) (bytes : List Byte) : Worker R S :=
  let (w, result) := w.receiveChunk env id bytes
  let w := { w with inFlight := w.inFlight - bytes.length, consumedTotal := w.consumedTotal + bytes.length }
  let w := w.queueOp (.ack id w.consumedTotal)
  match result with
  | .ok () => w
  | .error _ => w.dropReceiving env true

/-- `Ack`: cumulative over the session. -/
def onAck (w : Worker R S) (id consumed : Nat) : Worker R S :=
  let w := { w with ackedTotal := max (min consumed w.sentTotal) w.ackedTotal }
  match w.sending.filter (·.id = id) with
  | none => w
  | some sending =>
    if sending.ended && w.ackedTotal ≥ sending.start + sending.length then { w with sending := none } else w

def onPeer (w : Worker R S) (op : TransferOp) : Worker R S :=
  match w.options.validatePeerOp op with
  | .error _ => w
  | .ok () =>
    match op with
    | .begin id kind length entries _ => w.onBegin env id kind length entries
    | .data id bytes => w.onData env id bytes
    | .finish id => w.finishReceiving env id
    | .cancel id => if w.receiving.any (·.id = id) then w.dropReceiving env false else w
    | .ack id consumed => w.onAck id consumed
    | .refuse id => if w.sending.any (·.id = id) then { w with sending := none } else w

def apply (w : Worker R S) (command : Command) : Worker R S :=
  match command with
  | .local copied => w.shareLocal env copied
  | .peerText value =>
    if !w.options.receive then w
    else
      let w := (w.cancelSending).dropReceiving env false
      (({ w with lastReceived := some (.text value) } : Worker R S).serve env (.text value)).1
  | .peer op => w.onPeer env op
  | .localClosed | .stop => w

def sharesImages (w : Worker R S) : Bool := w.options.send && w.options.images

/-- What sharing a copy comes to: nothing, or after whatever still travelled was dropped, a record or a new
transfer. -/
theorem shareLocal_cases (w : Worker R S) (copied : CopiedClipboard) : w.shareLocal env copied = w ∨
    w.shareLocal env copied = (w.cancelSending).dropReceiving env true ∨
    (∃ value, w.shareLocal env copied = ((w.cancelSending).dropReceiving env true).queue (.clipboard value)) ∨
    (∃ image, copied = .png image ∧ w.sharesImages = true ∧ w.shareLocal env copied =
      ((w.cancelSending).dropReceiving env true).startSending .image (.image image) image.length 0 1) ∨
    ∃ paths, w.shareLocal env copied = ((w.cancelSending).dropReceiving env true).shareFiles env paths := by
  cases copied with
  | text value =>
    unfold shareLocal
    dsimp only
    split
    · exact .inl rfl
    split
    · exact .inl rfl
    split
    · exact .inr (.inl rfl)
    split
    · exact .inr (.inl rfl)
    · exact .inr (.inr (.inl ⟨value, rfl⟩))
  | png image =>
    unfold shareLocal
    dsimp only
    split
    · exact .inl rfl
    rename_i hshared
    split
    · exact .inl rfl
    split
    · exact .inr (.inl rfl)
    · exact .inr (.inr (.inr (.inl ⟨image, rfl, by simpa [sharesImages] using hshared, rfl⟩)))
  | files paths =>
    unfold shareLocal
    dsimp only
    split
    · exact .inl rfl
    split
    · exact .inl rfl
    split
    · exact .inr (.inl rfl)
    · exact .inr (.inr (.inr (.inr ⟨paths, rfl⟩)))

def cleanup (w : Worker R S) : Worker R S :=
  let w := { w with sending := none, receiving := none }
  match w.pendingToken with
  | some token =>
    { w with
      pendingToken := none
      requests := w.requests ++ [(.abandon token, env.serve w.call (.abandon token))]
      call := w.call + 1 }
  | none => w

end Worker

end Jwm.Remote
