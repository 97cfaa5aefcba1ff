/-
The mailbox between the session workers and the clipboard watcher (`clipboard_remote_mailbox.rs`): a bounded queue of requests, and the
receipts that tell whether a received file copy may have been offered to other applications.
-/
import Jwm.Remote.FileList

namespace Jwm.Serve

open FileList

open FileList (Path)

def maxCommands : Nat := 32

def maxTextBytes : Nat := 256 * 1024

def maxImageBytes : Nat := 32 * 1024 * 1024

def maxRetainedBytes : Nat := maxImageBytes + 1024 * 1024

def maxFileBytes : Nat := maxTextBytes

/-- `size_of::<PathBuf>()`. -/
def pathBufSize : Nat := 24

/-- A growable buffer: what it holds and what it has room for. -/
structure Buf (α : Type) where
  items : List α
  capacity : Nat

inductive PendingKind where
  | png
  | files
  deriving DecidableEq

inductive OfferedData where
  | text (bytes : List Byte)
  | png (bytes : List Byte)
  | files (gnome uriList text : List Byte)
  | pending (token : Nat) (kind : PendingKind)
  deriving DecidableEq

def OfferedData.pendingToken : OfferedData → Option Nat
  | .pending token _ => some token
  | _ => none

/-- `OfferedData::files`. -/
def OfferedData.ofPaths (paths : List Path) : OfferedData :=
  .files (fileListPayloads paths).gnome (fileListPayloads paths).uriList (fileListPayloads paths).text

/-- What the watcher is asked to serve; `ρ` stands for the receipt of a file copy. -/
inductive RemoteServe (ρ : Type) where
  | text (v : Buf Byte)
  | announce (token : Nat) (kind : PendingKind)
  | fulfilPng (token : Nat) (png : Buf Byte)
  | fulfilFiles (token : Nat) (paths : Buf (Buf Byte)) (receipt : ρ)
  | abandon (token : Nat)

namespace RemoteServe

variable {ρ : Type}

def withReceipt (request : RemoteServe Unit) (receipt : ρ) : RemoteServe ρ :=
  match request with
  | .text v => .text v
  | .announce token kind => .announce token kind
  | .fulfilPng token png => .fulfilPng token png
  | .fulfilFiles token paths () => .fulfilFiles token paths receipt
  | .abandon token => .abandon token

def receipt? : RemoteServe ρ → Option ρ
  | .fulfilFiles _ _ receipt => some receipt
  | _ => none

end RemoteServe

/-! ## Sizes -/

/-- A `usize` result, unless it overflows. -/
def checkedUsize (n : Nat) : Option Nat := if n < 2 ^ 64 then some n else none

def pathsBytes (paths : Buf (Buf Byte)) : Option Nat :=
  if paths.items.length > maxFileListItems ∨ paths.capacity > maxFileListItems then none
  else do
    let retained ← checkedUsize (paths.capacity * pathBufSize)
    let sums ← paths.items.foldlM (fun (sums : Nat × Nat) path => do
      let retained ← checkedUsize (sums.1 + path.capacity)
      let escaped ← checkedUsize (path.items.length * 9)
      let line ← checkedUsize (escaped + 18)
      let encoded ← checkedUsize (sums.2 + line)
      return (retained, encoded)) (retained, 4)
    if sums.1 ≤ maxFileBytes ∧ sums.2 ≤ maxFileBytes then some sums.1 else none

def requestBytes {ρ : Type} : RemoteServe ρ → Option Nat
  | .text v => if v.capacity ≤ maxTextBytes then some v.capacity else none
  | .fulfilPng _ png => if png.capacity ≤ maxImageBytes then some png.capacity else none
  | .fulfilFiles _ paths _ => pathsBytes paths
  | .announce _ _ => some 0
  | .abandon _ => some 0

/-! ## Receipts -/

/-- The values of the flag: 0, 1 and 2. -/
inductive Disposition where
  | undecided
  | rejectedUnpublished
  | acceptedOrMayPublish
  deriving DecidableEq

/-- The flags, by the receipts they belong to. -/
abbrev Receipts := Nat → Disposition

/-- The request, wherever a receipt is an index of the flags. -/
abbrev Request := RemoteServe Nat

namespace Receipts

/-- `compare_exchange(0, 1)`. -/
def rejectUnpublished (flags : Receipts) (receipt : Nat) : Receipts :=
  if flags receipt = .undecided then Function.update flags receipt .rejectedUnpublished else flags

/-- `store(2)`. -/
def acceptedOrMayPublish (flags : Receipts) (receipt : Nat) : Receipts := Function.update flags receipt .acceptedOrMayPublish

/-- `RemoteServe::reject_unpublished`. -/
def reject (flags : Receipts) (request : Request) : Receipts :=
  match request.receipt? with
  | some receipt => flags.rejectUnpublished receipt
  | none => flags

def rejectAll (flags : Receipts) (requests : List Request) : Receipts := requests.foldl reject flags

end Receipts

/-! ## The queue -/

structure QueueState where
  queue : List (Request × Nat)
  bytes : Nat
  aborted : Bool
  closed : Bool
  finished : Bool

namespace QueueState

def new : QueueState where
  queue := []
  bytes := 0
  aborted := false
  closed := false
  finished := false

def requests (q : QueueState) : List Request := q.queue.map Prod.fst

/-- The queue without what is drained of it, which is to be rejected. -/
def drain (q : QueueState) : QueueState × List Request := ({ q with queue := [], bytes := 0 }, q.requests)

def abortLocked (q : QueueState) : QueueState × List Request := ({ q.drain.1 with aborted := true }, q.drain.2)

/-- How a request was taken. -/
inductive Sent where
  | refused
  | overflowed (drained : List Request)
  | admitted

def send (q : QueueState) (value : Request) : QueueState × Sent :=
  if q.closed || q.aborted then (q, .refused)
  else
    match (requestBytes value).filter fun bytes => q.queue.length < maxCommands && bytes ≤ maxRetainedBytes - q.bytes with
    | none => (q.abortLocked.1, .overflowed q.abortLocked.2)
    | some bytes => ({ q with bytes := q.bytes + bytes, queue := q.queue ++ [(value, bytes)] }, .admitted)

def pop (q : QueueState) : QueueState × Option Request :=
  match q.queue with
  | [] => (q, none)
  | (value, bytes) :: rest => ({ q with queue := rest, bytes := q.bytes - bytes }, some value)

def close (q : QueueState) : QueueState × List Request :=
  if q.finished then ({ q with closed := true }, [])
  else ({ q.abortLocked.1 with closed := true }, q.abortLocked.2)

def closeSender (q : QueueState) : QueueState := { q with closed := true }

def closeNormally (q : QueueState) : QueueState × List Request :=
  ({ q.drain.1 with closed := true, finished := !q.aborted }, q.drain.2)

end QueueState

/-! ## Offers -/

/-- What `install_remote_fulfil` leaves, and what it answers. -/
structure Installed where
  pending : Option OfferedData
  offered : Option OfferedData
  receipts : Receipts
  answer : Option Bool

def acceptReceipt (flags : Receipts) : Option Nat → Receipts
  | some receipt => flags.acceptedOrMayPublish receipt
  | none => flags

def rejectReceipt (flags : Receipts) : Option Nat → Receipts
  | some receipt => flags.rejectUnpublished receipt
  | none => flags

def installRemoteFulfil (token : Nat) (data : OfferedData) (pending offered : Option OfferedData) (flags : Receipts)
    (receipt : Option Nat) : Installed :=
  if pending.bind OfferedData.pendingToken = some token then ⟨some data, offered, acceptReceipt flags receipt, some false⟩
  else if offered.bind OfferedData.pendingToken ≠ some token then ⟨pending, offered, rejectReceipt flags receipt, none⟩
  else ⟨pending, some data, acceptReceipt flags receipt, some true⟩

/-- The data becomes an offer and the receipt is accepted, or the offers stay and it is rejected. -/
theorem installRemoteFulfil_cases (token : Nat) (data : OfferedData) (pending offered : Option OfferedData) (flags : Receipts)
    (receipt : Option Nat) :
    installRemoteFulfil token data pending offered flags receipt = ⟨some data, offered, acceptReceipt flags receipt, some false⟩ ∨
    installRemoteFulfil token data pending offered flags receipt = ⟨pending, some data, acceptReceipt flags receipt, some true⟩ ∨
    installRemoteFulfil token data pending offered flags receipt = ⟨pending, offered, rejectReceipt flags receipt, none⟩ := by
  unfold installRemoteFulfil
  split
  · exact .inl rfl
  · split
    · exact .inr (.inr rfl)
    · exact .inr (.inl rfl)

/-! ## Steps -/

/-- The queue, the flags, and the requests the watcher has popped and not applied yet. -/
structure Mailbox where
  queue : QueueState
  receipts : Receipts
  nextReceipt : Nat
  hands : List Request

/-- What happened to a request, or to the queue. -/
inductive Event where
  | admitted (request : Request)
  | refused (request : Request)
  | drained (request : Request)
  | popped (request : Request)
  | installed (request : Request)
  | declined (request : Request)
  | applied (request : Request)
  | aborted
  | finished

inductive Call where
  | send (request : RemoteServe Unit)
  | refuse (request : RemoteServe Unit)
  | abort
  | pop
  | apply (index : Nat) (pending offered : Option OfferedData)
  | closeSender
  | closeNormally
  | close

namespace Mailbox

def start : Mailbox where
  queue := .new
  receipts := fun _ => .undecided
  nextReceipt := 0
  hands := []

/-- A request comes with a receipt that no other one has. -/
def fresh (m : Mailbox) (request : RemoteServe Unit) : Request := request.withReceipt m.nextReceipt

/-- A popped request is applied to the offers there are. Nothing else writes the receipt of a popped request, so that the offers and the
flag change in one step. -/
def applyRemote (flags : Receipts) (request : Request) (pending offered : Option OfferedData) : Receipts × Event :=
  match request with
  | .fulfilPng token png =>
    match (installRemoteFulfil token (.png png.items) pending offered flags none).answer with
    | some _ => (flags, .installed request)
    | none => (flags, .declined request)
  | .fulfilFiles token paths receipt =>
    let result := installRemoteFulfil token (.ofPaths (paths.items.map Buf.items)) pending offered flags (some receipt)
    match result.answer with
    | some _ => (result.receipts, .installed request)
    | none => (result.receipts, .declined request)
  | _ => (flags, .applied request)

def step (m : Mailbox) : Call → Mailbox × List Event
  | .send request =>
    let value := m.fresh request
    match m.queue.send value with
    | (q, .refused) =>
      ({ m with queue := q, receipts := m.receipts.reject value, nextReceipt := m.nextReceipt + 1 }, [.refused value])
    | (q, .overflowed drained) =>
      ({ m with queue := q, receipts := (m.receipts.rejectAll drained).reject value, nextReceipt := m.nextReceipt + 1 },
        .aborted :: drained.map .drained ++ [.refused value])
    | (q, .admitted) => ({ m with queue := q, nextReceipt := m.nextReceipt + 1 }, [.admitted value])
  | .refuse request =>
    ({ m with receipts := m.receipts.reject (m.fresh request), nextReceipt := m.nextReceipt + 1 }, [.refused (m.fresh request)])
  | .abort =>
    let (q, drained) := m.queue.abortLocked
    ({ m with queue := q, receipts := m.receipts.rejectAll drained }, .aborted :: drained.map .drained)
  | .pop =>
    match m.queue.pop with
    | (q, some request) => ({ m with queue := q, hands := m.hands ++ [request] }, [.popped request])
    | (q, none) => ({ m with queue := q }, [])
  | .apply index pending offered =>
    match m.hands[index]? with
    | none => (m, [])
    | some request =>
      let applied := applyRemote m.receipts request pending offered
      ({ m with receipts := applied.1, hands := m.hands.eraseIdx index }, [applied.2])
  | .closeSender => ({ m with queue := m.queue.closeSender }, [])
  | .closeNormally =>
    let (q, drained) := m.queue.closeNormally
    ({ m with queue := q, receipts := m.receipts.rejectAll drained },
      drained.map .drained ++ if q.finished then [.finished] else [])
  | .close =>
    let (q, drained) := m.queue.close
    ({ m with queue := q, receipts := m.receipts.rejectAll drained },
      (if m.queue.finished then [] else [.aborted]) ++ drained.map .drained)

end Mailbox

end Jwm.Serve
