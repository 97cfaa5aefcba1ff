/-
Unmaps the window manager issues itself (`backend/x11/wm/managed_unmap.rs`). One `UnmapWindow` request
comes back as two notifications that carry only the low 16 bits of its sequence; the tracker tells them
from a client's withdrawal. Here it runs next to the server, which owes each request its two copies.
-/
import Jwm.Data.KeyMap
import Jwm.Data.Run

namespace Jwm

/-! ## The tracker -/

inductive ManagedUnmapReason where
  | swallowDiscard
  | iconifyRetain (generation : Nat)
deriving DecidableEq

inductive ManagedUnmapDisposition where
  /-- The first delivery of a request of the window manager. -/
  | managerOwned (reason : ManagedUnmapReason)
  | managerDuplicate
  | external
deriving DecidableEq

structure DeliveryCopies where
  client : Bool := false
  parent : Bool := false
deriving DecidableEq

def DeliveryCopies.complete (c : DeliveryCopies) : Bool := c.client && c.parent

structure PendingManagedUnmap where
  fullSequence : Nat
  reason : ManagedUnmapReason
  copies : DeliveryCopies := {}
  emitted : Bool := false
  /-- The lifecycle ended independently; what is still to come is only swallowed. -/
  suppressed : Bool := false
deriving DecidableEq

def lowSequence (sequence : Nat) : Nat := sequence % 2 ^ 16

def PendingManagedUnmap.wireSequence (p : PendingManagedUnmap) : Nat := lowSequence p.fullSequence

def maxPendingPerWindow : Nat := 8

/-- The windows' queues. -/
structure ManagedUnmapTracker where
  pending : KeyMap Nat (List PendingManagedUnmap)

/-- `rposition`: the last position that meets `p`. -/
def rposition {α : Type} (p : α → Bool) (l : List α) : Option Nat :=
  (l.reverse.findIdx? p).map fun i => l.length - 1 - i

namespace ManagedUnmapTracker

def queueOf (t : ManagedUnmapTracker) (window : Nat) : List PendingManagedUnmap := (t.pending.get? window).getD []

def clear (t : ManagedUnmapTracker) (window : Nat) : ManagedUnmapTracker := ⟨t.pending.remove window⟩

/-- `ensure_capacity`: whether another request of the window can be recorded. -/
def ensureCapacity (t : ManagedUnmapTracker) (window : Nat) : Bool :=
  !(((t.pending.get? window).map List.length).getD 0 ≥ maxPendingPerWindow)

/-- `record`, with whether it succeeded. -/
def record (t : ManagedUnmapTracker) (window fullSequence : Nat) (reason : ManagedUnmapReason) :
    ManagedUnmapTracker × Bool :=
  if t.ensureCapacity window then
    (⟨t.pending.insert window (t.queueOf window ++ [{ fullSequence := fullSequence, reason := reason }])⟩, true)
  else (t, false)

/-- The entry a sequence belongs to: the newest live one, else a tombstone. -/
def matchIndex (queue : List PendingManagedUnmap) (sequence : Nat) : Option Nat :=
  rposition (fun p => p.wireSequence == sequence && !p.suppressed) queue <|>
    queue.findIdx? fun p => p.wireSequence == sequence

/-- A copy of the request at `index` has arrived. -/
def deliver (queue : List PendingManagedUnmap) (index : Nat) (p : PendingManagedUnmap) (client parent : Bool) :
    List PendingManagedUnmap × ManagedUnmapDisposition :=
  let copies : DeliveryCopies := ⟨p.copies.client || client, p.copies.parent || parent⟩
  let disposition := if p.emitted then .managerDuplicate else .managerOwned p.reason
  let queue := if copies.complete then queue.eraseIdx index else queue.set index { p with copies, emitted := true }
  (queue, disposition)

def classify (t : ManagedUnmapTracker) (root window eventWindow sequence : Nat) (synthetic fromConfigure : Bool) :
    ManagedUnmapTracker × ManagedUnmapDisposition :=
  -- the ICCCM withdrawal: late copies of requests in flight may only be swallowed
  if synthetic then
    (⟨t.pending.modify window (·.map fun p => { p with emitted := true, suppressed := true })⟩, .external)
  -- a server gravity transition acknowledges nothing
  else if fromConfigure then (t, .external)
  else
    let isClientCopy := eventWindow == window
    let isParentCopy := eventWindow == root
    if !isClientCopy && !isParentCopy then (t.clear window, .external)
    else
      match t.pending.get? window with
      | none => (t, .external)
      | some queue =>
        match (matchIndex queue sequence).bind fun index => (queue[index]?).map fun p => (index, p) with
        -- unmapped for another reason: an outstanding request cannot cause that transition any more
        | none => (t.clear window, .external)
        | some (index, p) =>
          let (queue, disposition) := deliver queue index p isClientCopy isParentCopy
          (if queue.isEmpty then t.clear window else ⟨t.pending.insert window queue⟩, disposition)

end ManagedUnmapTracker

/-! ## Next to the server -/

/-- The window a notification is delivered on. -/
inductive UnmapCopy where
  | client | root
deriving DecidableEq

/-- A request whose notifications are not all delivered, and which of them are. -/
structure UnmapRequest where
  window : Nat
  sequence : Nat
  client : Bool := false
  root : Bool := false
deriving DecidableEq

namespace UnmapRequest

def awaits (r : UnmapRequest) : UnmapCopy → Bool
  | .client => !r.client
  | .root => !r.root

def deliver (r : UnmapRequest) : UnmapCopy → UnmapRequest
  | .client => { r with client := true }
  | .root => { r with root := true }

def complete (r : UnmapRequest) : Bool := r.client && r.root

end UnmapRequest

/-- What reaches the tracker. A notification is named by the whole sequence of its request; the tracker
sees the low half. -/
inductive UnmapCall where
  | record (window sequence : Nat) (reason : ManagedUnmapReason)
  | notify (window sequence : Nat) (copy : UnmapCopy)
  | synthetic (window eventWindow sequence : Nat) (fromConfigure : Bool)
  | gravity (window eventWindow sequence : Nat)
  | destroy (window : Nat)
deriving DecidableEq

inductive UnmapAnswer where
  | recorded (ok : Bool)
  | classified (disposition : ManagedUnmapDisposition)
  | cleared
deriving DecidableEq

/-- The tracker, the requests the server still owes notifications for, and every sequence used so far. -/
structure UnmapWorld where
  tracker : ManagedUnmapTracker
  sent : List UnmapRequest
  used : List Nat

def UnmapWorld.initial : UnmapWorld := { tracker := ⟨KeyMap.empty⟩, sent := [], used := [] }

def deliverTo (window sequence : Nat) (copy : UnmapCopy) (sent : List UnmapRequest) : List UnmapRequest :=
  (sent.map fun r => if r.window = window ∧ r.sequence = sequence then r.deliver copy else r).filter (!·.complete)

def UnmapWorld.step (root : Nat) (w : UnmapWorld) : UnmapCall → UnmapWorld × UnmapAnswer
  | .record window sequence reason =>
    let (tracker, ok) := w.tracker.record window sequence reason
    ({ tracker
       sent := if ok then w.sent ++ [{ window := window, sequence := sequence }] else w.sent
       used := if ok then sequence :: w.used else w.used }, .recorded ok)
  | .notify window sequence copy =>
    let eventWindow := match copy with
      | .client => window
      | .root => root
    let (tracker, disposition) := w.tracker.classify root window eventWindow (lowSequence sequence) false false
    ({ w with tracker, sent := deliverTo window sequence copy w.sent }, .classified disposition)
  | .synthetic window eventWindow sequence fromConfigure =>
    let (tracker, disposition) := w.tracker.classify root window eventWindow sequence true fromConfigure
    ({ w with tracker }, .classified disposition)
  | .gravity window eventWindow sequence =>
    let (tracker, disposition) := w.tracker.classify root window eventWindow sequence false true
    ({ w with tracker }, .classified disposition)
  | .destroy window =>
    ({ w with tracker := w.tracker.clear window, sent := w.sent.filter (·.window ≠ window) }, .cleared)

/-- What the server and the callers guarantee: a recorded request is not on the root, has a sequence of its own
and lies less than `2^16` from those of its window still under way; a notification is one the server owes. -/
def ServedBy (root : Nat) (w : UnmapWorld) : UnmapCall → Prop
  | .record window sequence _ => w.tracker.ensureCapacity window = true →
      window ≠ root ∧ sequence ∉ w.used ∧
      ∀ r ∈ w.sent, r.window = window → sequence < r.sequence + 2 ^ 16 ∧ r.sequence < sequence + 2 ^ 16
  | .notify window sequence copy => ∃ r ∈ w.sent, r.window = window ∧ r.sequence = sequence ∧ r.awaits copy = true
  | _ => True

end Jwm
