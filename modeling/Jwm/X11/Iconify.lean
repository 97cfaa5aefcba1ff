/-
Iconic windows (`backend/x11/wm/iconify.rs`): which window waits for admission, which checked unmap is in flight
and which generation the server has acknowledged, and the two transactions that map windows again. They act on
the server through closures, modelled as state passing; here next to the windows' physical mapping and the
compositor's snapshot reservations.
-/
import Jwm.Data.KeyMap
import Jwm.Data.Run
import Mathlib.Data.List.Sort

namespace Jwm

/-! ## The coordinator -/

inductive IconifyPhase where
  | awaitingAdmission
  | unmapSent (generation : Nat)
  | iconic (generation : Nat)
deriving DecidableEq

def IconifyPhase.generation : IconifyPhase → Option Nat
  | .awaitingAdmission => none
  | .unmapSent generation | .iconic generation => some generation

inductive CancelPlan where
  | nothing
  | removedAwaiting
  | mapBeforeRemoving (generation : Nat)
deriving DecidableEq

inductive AcknowledgeDisposition where
  | confirmed
  | duplicate
  | ignored
deriving DecidableEq

/-- The result of the ordered attributes query that follows a checked `MapWindow`. -/
inductive ViewabilityVerification (E : Type) where
  | confirmedViewable
  | confirmedNotViewable (error : E)
  | queryError (error : E)

structure IconifyCoordinator where
  phases : KeyMap Nat IconifyPhase

namespace IconifyCoordinator

variable (c : IconifyCoordinator)

def phase (window : Nat) : Option IconifyPhase := c.phases.get? window

/-- `request`, with whether admission should be attempted. -/
def request (window : Nat) : IconifyCoordinator × Bool :=
  match c.phase window with
  | none => (⟨c.phases.insert window .awaitingAdmission⟩, true)
  | some phase => (c, phase = .awaitingAdmission)

def markUnmapSent (window generation : Nat) : IconifyCoordinator × Bool :=
  if generation = 0 ∨ c.phase window ≠ some .awaitingAdmission then (c, false)
  else (⟨c.phases.insert window (.unmapSent generation)⟩, true)

def acknowledge (window generation : Nat) : IconifyCoordinator × AcknowledgeDisposition :=
  match c.phase window with
  | some (.unmapSent expected) =>
    if generation = expected then (⟨c.phases.insert window (.iconic generation)⟩, .confirmed) else (c, .ignored)
  | some (.iconic expected) => if generation = expected then (c, .duplicate) else (c, .ignored)
  | _ => (c, .ignored)

def beginCancel (window : Nat) : IconifyCoordinator × CancelPlan :=
  match c.phase window with
  | none => (c, .nothing)
  | some .awaitingAdmission => (⟨c.phases.remove window⟩, .removedAwaiting)
  | some (.unmapSent generation) | some (.iconic generation) => (c, .mapBeforeRemoving generation)

def generationOf (window : Nat) : Option Nat :=
  (c.phase window).bind IconifyPhase.generation

def finishMappedCancel (window generation : Nat) : IconifyCoordinator :=
  if c.generationOf window = some generation then ⟨c.phases.remove window⟩ else c

/-- The windows to map again before the compositor goes, with their generations, in the order of their ids. -/
def remapBeforeCompositorLoss : List (Nat × Nat) :=
  (c.phases.entries.filterMap fun (window, phase) => phase.generation.map fun generation => (window, generation)).insertionSort
    fun a b => a.1 ≤ b.1

def markAwaitingAfterCompositorLoss (window generation : Nat) : IconifyCoordinator :=
  if c.generationOf window = some generation then ⟨c.phases.insert window .awaitingAdmission⟩ else c

def retire (window : Nat) : IconifyCoordinator × Option IconifyPhase :=
  (⟨c.phases.remove window⟩, c.phase window)

end IconifyCoordinator

/-! ## The transactions -/

section Transactions

variable {σ E : Type}

/-- A window to map again: its id, its X11 id and its generation. -/
structure Remap where
  window : Nat
  x11Window : Nat
  generation : Nat
deriving DecidableEq

/-- `finish_checked_unmap`: a failed request gives its reservation back. -/
def finishCheckedUnmap (coordinator : IconifyCoordinator) (window generation : Nat) (unmapResult : Except E Unit)
    (releaseFailedReservation : σ → σ) (s : σ) : IconifyCoordinator × σ × Except E Unit :=
  match unmapResult with
  | .error error => (coordinator, releaseFailedReservation s, .error error)
  | .ok () => ((coordinator.markUnmapSent window generation).1, s, .ok ())

/-- `finish_checked_cancel`: only a failed query leaves it open whether the window was mapped. -/
def finishCheckedCancel (coordinator : IconifyCoordinator) (window generation : Nat) (mapResult : Except E Unit)
    (verifyViewable : ViewabilityVerification E) (rollbackUnmap : Nat → Nat → σ → σ) (s : σ) :
    IconifyCoordinator × σ × Except E Unit :=
  match mapResult with
  | .error error => (coordinator, s, .error error)
  | .ok () =>
    match verifyViewable with
    | .confirmedViewable => (coordinator.finishMappedCancel window generation, s, .ok ())
    | .confirmedNotViewable error => (coordinator, s, .error error)
    | .queryError error => (coordinator, rollbackUnmap window generation s, .error error)

/-- The rollback of the maps confirmed so far, last first. -/
def rollbackAll (rollbackUnmap : Nat → Nat → σ → σ) (confirmed : List Remap) (s : σ) : σ :=
  confirmed.reverse.foldl (fun s e => rollbackUnmap e.window e.generation s) s

/-- The mapping loop of `prepare_compositor_loss_transaction`. -/
def mapAll (mapWindow : Nat → σ → σ × Except E Unit) (verifyViewable : Nat → ViewabilityVerification E)
    (rollbackUnmap : Nat → Nat → σ → σ) : List Remap → List Remap → σ → σ × Except E (List Remap)
  | confirmed, [], s => (s, .ok confirmed)
  | confirmed, e :: rest, s =>
    match mapWindow e.window s with
    | (s, .error error) => (rollbackAll rollbackUnmap confirmed s, .error error)
    | (s, .ok ()) =>
      match verifyViewable e.window with
      | .confirmedViewable => mapAll mapWindow verifyViewable rollbackUnmap (confirmed ++ [e]) rest s
      | .confirmedNotViewable error => (rollbackAll rollbackUnmap confirmed s, .error error)
      | .queryError error =>
        (rollbackAll rollbackUnmap confirmed (rollbackUnmap e.window e.generation s), .error error)

/-- `prepare_compositor_loss_transaction`: reservations and phases change only when every window is confirmed. -/
def prepareCompositorLossTransaction (coordinator : IconifyCoordinator) (resolved : List Remap)
    (mapWindow : Nat → σ → σ × Except E Unit) (verifyViewable : Nat → ViewabilityVerification E)
    (rollbackUnmap : Nat → Nat → σ → σ) (releaseReservation : Nat → Nat → σ → σ) (s : σ) :
    IconifyCoordinator × σ × Except E Unit :=
  match mapAll mapWindow verifyViewable rollbackUnmap [] resolved s with
  | (s, .error error) => (coordinator, s, .error error)
  | (s, .ok confirmed) =>
    (confirmed.foldl (fun c e => c.markAwaitingAfterCompositorLoss e.window e.generation) coordinator,
      confirmed.foldl (fun s e => releaseReservation e.x11Window e.generation s) s, .ok ())

end Transactions

/-! ## Next to the server -/

/-- What keeps a window off the screen. -/
inductive Mapping where
  | mapped
  | unmapped (generation : Nat)
deriving DecidableEq

/-- The server's side: the mapping of each window, and the snapshots reserved under a generation. -/
structure IconifyServer where
  mapping : Nat → Mapping
  reserved : List (Nat × Nat)

namespace IconifyServer

def set (s : IconifyServer) (window : Nat) (m : Mapping) : IconifyServer :=
  { s with mapping := Function.update s.mapping window m }

def unmap (window generation : Nat) (s : IconifyServer) : IconifyServer := s.set window (.unmapped generation)

def release (x11Window generation : Nat) (s : IconifyServer) : IconifyServer :=
  { s with reserved := s.reserved.filter (· ≠ (x11Window, generation)) }

end IconifyServer

open IconifyServer

/-- What becomes of a checked map and of the query after it. A failed map changes nothing; after the last two the window is
mapped or it is not. -/
inductive MapOutcome (E : Type) where
  | mapFailed (error : E)
  | viewable
  | notViewable (error : E) (mapped : Bool)
  | queryFailed (error : E) (mapped : Bool)

namespace MapOutcome

variable {E : Type}

def mapWindow (outcome : Nat → MapOutcome E) (window : Nat) (s : IconifyServer) : IconifyServer × Except E Unit :=
  match outcome window with
  | .mapFailed error => (s, .error error)
  | .viewable => (s.set window .mapped, .ok ())
  | .notViewable _ mapped | .queryFailed _ mapped => (if mapped then s.set window .mapped else s, .ok ())

def verifyViewable (outcome : Nat → MapOutcome E) (window : Nat) : ViewabilityVerification E :=
  match outcome window with
  | .mapFailed error => .queryError error
  | .viewable => .confirmedViewable
  | .notViewable error _ => .confirmedNotViewable error
  | .queryFailed error _ => .queryError error

end MapOutcome

open MapOutcome

inductive IconifyCall (E : Type) where
  | request (window : Nat)
  /-- A checked unmap for the snapshot reserved under the generation, and its result. -/
  | unmap (window generation : Nat) (result : Except E Unit)
  | acknowledge (window generation : Nat)
  | cancel (window : Nat) (outcome : MapOutcome E)
  | compositorLoss (outcome : Nat → MapOutcome E)
  /-- The window withdraws or is destroyed. -/
  | retire (window : Nat)
  /-- The window is mapped and managed again. -/
  | manage (window : Nat)

inductive IconifyAnswer (E : Type) where
  | requested (attempt : Bool)
  | finished (result : Except E Unit)
  | acknowledged (disposition : AcknowledgeDisposition)
  | cancelled (plan : CancelPlan) (result : Except E Unit)
  | retired (phase : Option IconifyPhase)
  | managed

/-- The coordinator, the server, the generations used so far, and the windows that are not managed. -/
structure IconifyWorld where
  coordinator : IconifyCoordinator
  server : IconifyServer
  used : List Nat
  retired : List Nat

def IconifyWorld.initial : IconifyWorld :=
  { coordinator := ⟨KeyMap.empty⟩, server := { mapping := fun _ => .mapped, reserved := [] }, used := [], retired := [] }

/-- The windows of a compositor loss, each with its X11 id. -/
def IconifyWorld.resolved (x11 : Nat → Nat) (w : IconifyWorld) : List Remap :=
  w.coordinator.remapBeforeCompositorLoss.map fun (window, generation) =>
    { window := window, x11Window := x11 window, generation := generation }

def IconifyWorld.step {E : Type} (x11 : Nat → Nat) (w : IconifyWorld) : IconifyCall E → IconifyWorld × IconifyAnswer E
  | .request window =>
    let (coordinator, attempt) := w.coordinator.request window
    ({ w with coordinator }, .requested attempt)
  | .unmap window generation result =>
    let server := { w.server with reserved := (x11 window, generation) :: w.server.reserved }
    let server := match result with
      | .ok () => unmap window generation server
      | .error _ => server
    let (coordinator, server, result) := finishCheckedUnmap w.coordinator window generation result
      (release (x11 window) generation) server
    ({ w with coordinator, server, used := generation :: w.used }, .finished result)
  | .acknowledge window generation =>
    let (coordinator, disposition) := w.coordinator.acknowledge window generation
    ({ w with coordinator }, .acknowledged disposition)
  | .cancel window outcome =>
    let (coordinator, plan) := w.coordinator.beginCancel window
    match plan with
    | .nothing | .removedAwaiting => ({ w with coordinator }, .cancelled plan (.ok ()))
    | .mapBeforeRemoving generation =>
      let (server, mapResult) := mapWindow (fun _ => outcome) window w.server
      let (coordinator, server, result) := finishCheckedCancel coordinator window generation mapResult
        (verifyViewable (fun _ => outcome) window) unmap server
      ({ w with coordinator, server }, .cancelled plan result)
  | .compositorLoss outcome =>
    let (coordinator, server, result) := prepareCompositorLossTransaction w.coordinator (w.resolved x11)
      (mapWindow outcome) (verifyViewable outcome) unmap release w.server
    ({ w with coordinator, server }, .finished result)
  | .retire window =>
    let (coordinator, phase) := w.coordinator.retire window
    ({ w with coordinator, retired := window :: w.retired }, .retired phase)
  | .manage window =>
    ({ w with server := w.server.set window .mapped, retired := w.retired.filter (· ≠ window) }, .managed)

/-- An unmap is attempted for a window that awaits admission, under a generation of its own. -/
def AdmittedCall {E : Type} (w : IconifyWorld) : IconifyCall E → Prop
  | .unmap window generation _ =>
    w.coordinator.phase window = some .awaitingAdmission ∧ generation ≠ 0 ∧ generation ∉ w.used
  | _ => True

end Jwm
