/-
Handing swallowed terminals to the next window manager (`jwm/swallowing.rs`). The parents that swallowing hid are mapped,
flushed and seen to be viewable before any client is changed. What is asked of the display server, and whether it did it, is
kept in a log.
-/
import Jwm.Core.Workspace
import Jwm.Data.Fallible
import Jwm.Data.KeyMap
import Jwm.X11.ManagedUnmap

namespace Jwm

open List Option

/-! ## The server -/

/-- The requests the handoff makes; what the server answers may depend on anything it was asked before. -/
structure HandoffWindowOps (σ : Type) where
  mapWindow : Nat → σ → Except String Unit × σ
  flush : σ → Except String Unit × σ
  /-- `map_state_viewable` of the attributes. -/
  getWindowAttributes : Nat → σ → Except String Bool × σ
  unmapManagedWindow : Nat → ManagedUnmapReason → σ → Except String Unit × σ

/-- A request with its answer. -/
inductive HandoffEvent where
  | map (window : Nat) (ok : Bool)
  | flush (ok : Bool)
  | attributes (window : Nat) (viewable : Option Bool)
  | unmap (window : Nat) (reason : ManagedUnmapReason) (ok : Bool)
deriving DecidableEq

namespace HandoffEvent

def mapRequest : HandoffEvent → Option Nat
  | .map window _ => some window
  | _ => none

def mapped : HandoffEvent → Option Nat
  | .map window true => some window
  | _ => none

def unmapRequest : HandoffEvent → Option Nat
  | .unmap window _ _ => some window
  | _ => none

end HandoffEvent

/-- A client with its window and the parent it swallowed. -/
structure SwallowClient where
  win : Nat
  swallowing : Option ClientKey
  client : WMClient

namespace SwallowClient

def isSwallowed (c : SwallowClient) : Bool := c.client.state.isSwallowed

def unlink (c : SwallowClient) : SwallowClient := { c with swallowing := none }

def unflag (c : SwallowClient) : SwallowClient :=
  { c with client := { c.client with state := { c.client.state with isSwallowed := false } } }

end SwallowClient

structure HandoffState (σ : Type) where
  server : σ
  log : List HandoffEvent
  clients : KeyMap ClientKey SwallowClient

abbrev Handoff (σ : Type) := EStateM String (HandoffState σ)

namespace HandoffWindowOps

variable {σ : Type} (ops : HandoffWindowOps σ)

def request {α : Type} (ask : σ → Except String α × σ) (event : Except String α → HandoffEvent) : Handoff σ α := fun s =>
  let answer := ask s.server
  let s := { s with server := answer.2, log := s.log ++ [event answer.1] }
  match answer.1 with
  | .ok a => .ok a s
  | .error e => .error e s

def map (window : Nat) : Handoff σ Unit := request (ops.mapWindow window) fun answer => .map window answer.isOk

def flushAll : Handoff σ Unit := request ops.flush fun answer => .flush answer.isOk

def attributes (window : Nat) : Handoff σ Bool := request (ops.getWindowAttributes window) fun answer => .attributes window answer.toOption

def unmap (window : Nat) : Handoff σ Unit :=
  request (ops.unmapManagedWindow window .swallowDiscard) fun answer => .unmap window .swallowDiscard answer.isOk

end HandoffWindowOps

/-! ## The plan -/

structure SwallowedParentHandoff where
  parentKey : ClientKey
  window : Nat
deriving DecidableEq

def linkedParent (clients : KeyMap ClientKey SwallowClient) (childKey : ClientKey) : Option SwallowedParentHandoff :=
  ((clients.get? childKey).bind (·.swallowing)).bind fun parentKey =>
    (clients.get? parentKey).map fun parent => { parentKey, window := parent.win }

def flaggedParent (clients : KeyMap ClientKey SwallowClient) (parentKey : ClientKey) : Option SwallowedParentHandoff :=
  (clients.get? parentKey).bind fun parent => if parent.isSwallowed then some { parentKey, window := parent.win } else none

/-- One of the two loops: the parents that are not in the plan yet join it. -/
def extendPlan (candidate : ClientKey → Option SwallowedParentHandoff) :
    List ClientKey → List SwallowedParentHandoff → List SwallowedParentHandoff
  | [], plan => plan
  | key :: order, plan =>
    match candidate key with
    | none => extendPlan candidate order plan
    | some target =>
      if (plan.map (·.parentKey)).contains target.parentKey then extendPlan candidate order plan
      else extendPlan candidate order (plan ++ [target])

def swallowedParentHandoffPlan (order : List ClientKey) (clients : KeyMap ClientKey SwallowClient) : List SwallowedParentHandoff :=
  extendPlan (flaggedParent clients) order (extendPlan (linkedParent clients) order [])

/-! ## The handoff -/

/-- `Debug` of a `WindowId`. -/
def debugWindow (window : Nat) : String :=
  let hex := String.ofList (Nat.toDigits 16 window)
  s!"Win(0x{hex})"

section

variable {σ : Type} (ops : HandoffWindowOps σ)

def unmapTargets : List SwallowedParentHandoff → Handoff σ (List String)
  | [] => pure []
  | target :: rest => do
    match ← attempt (ops.unmap target.window) with
    | .ok () => unmapTargets rest
    | .error error =>
      let window := debugWindow target.window
      let failures ← unmapTargets rest
      return s!"unmap swallowed parent {window}: {error}" :: failures

def rollbackSwallowedParentMaps (attempted : List SwallowedParentHandoff) : Handoff σ (List String) := do
  let failures ← unmapTargets ops attempted.reverse
  match ← attempt ops.flushAll with
  | .ok () => return failures
  | .error error => return failures ++ [s!"flush swallowed-parent rollback: {error}"]

def rollbackFailureSuffix (failures : List String) : String :=
  if failures.isEmpty then ""
  else
    let joined := String.intercalate "; " failures
    s!"; rollback failures: {joined}"

/-- The way out of every failure: the maps are undone, and the message names what failed. -/
def rollbackAndFail {α : Type} (attempted : List SwallowedParentHandoff) (message : String) : Handoff σ α := do
  let suffix := rollbackFailureSuffix (← rollbackSwallowedParentMaps ops attempted)
  throw s!"{message}{suffix}"

/-- The loop of the maps, with those that succeeded so far. -/
def mapTargets (attempted : List SwallowedParentHandoff) : List SwallowedParentHandoff → Handoff σ (List SwallowedParentHandoff)
  | [] => pure attempted
  | target :: rest => do
    let window := debugWindow target.window
    match ← attempt (ops.map target.window) with
    | .ok () => mapTargets (attempted ++ [target]) rest
    | .error error => rollbackAndFail ops attempted s!"failed to map swallowed parent {window}: {error}"

def confirmTargets (attempted : List SwallowedParentHandoff) : List SwallowedParentHandoff → Handoff σ Unit
  | [] => pure ()
  | target :: rest => do
    let window := debugWindow target.window
    match ← attempt (ops.attributes target.window) with
    | .ok true => confirmTargets attempted rest
    | .ok false => rollbackAndFail ops attempted s!"swallowed parent {window} was not viewable after mapping"
    | .error error => rollbackAndFail ops attempted s!"failed to confirm swallowed parent {window} after mapping: {error}"

def clearLinks (clients : KeyMap ClientKey SwallowClient) : KeyMap ClientKey SwallowClient :=
  clients.mapValues SwallowClient.unlink

def clearFlags (clients : KeyMap ClientKey SwallowClient) (plan : List SwallowedParentHandoff) : KeyMap ClientKey SwallowClient :=
  plan.foldl (fun clients target => clients.modify target.parentKey SwallowClient.unflag) clients

def mapSwallowedParentsForHandoff (order : List ClientKey) : Handoff σ (List ClientKey) := do
  let plan := swallowedParentHandoffPlan order (← get).clients
  if plan.isEmpty then
    modify fun s => { s with clients := clearLinks s.clients }
    return []
  let attempted ← mapTargets ops [] plan
  match ← attempt ops.flushAll with
  | .error error => rollbackAndFail ops attempted s!"failed to flush swallowed-parent handoff: {error}"
  | .ok () =>
    confirmTargets ops attempted plan
    modify fun s => { s with clients := clearFlags (clearLinks s.clients) plan }
    return plan.map (·.parentKey)

end

/-! ## What the plan holds -/

/-- Some of the clients are linked to this one, or it is one of them and flagged. -/
inductive SwallowedParent (among : ClientKey → Prop) (clients : KeyMap ClientKey SwallowClient) (key : ClientKey) : Prop where
  | linked (childKey : ClientKey) (child : SwallowClient) : among childKey → clients.get? childKey = some child →
      child.swallowing = some key → SwallowedParent among clients key
  | flagged (parent : SwallowClient) : among key → clients.get? key = some parent → parent.isSwallowed = true →
      SwallowedParent among clients key

section

variable {clients : KeyMap ClientKey SwallowClient} {candidate : ClientKey → Option SwallowedParentHandoff}
  {order : List ClientKey} {key : ClientKey} {target : SwallowedParentHandoff}

theorem linkedParent_eq_some : linkedParent clients key = some target ↔ ∃ child parent, clients.get? key = some child ∧
    child.swallowing = some target.parentKey ∧ clients.get? target.parentKey = some parent ∧ target.window = parent.win := by
  unfold linkedParent
  rw [bind_eq_some_iff]
  constructor
  · rintro ⟨parentKey, hlink, hparent⟩
    obtain ⟨child, hchild, hswallowing⟩ := bind_eq_some_iff.1 hlink
    obtain ⟨parent, hget, rfl⟩ := map_eq_some_iff.1 hparent
    exact ⟨child, parent, hchild, hswallowing, hget, rfl⟩
  · rintro ⟨child, parent, hchild, hswallowing, hget, hwindow⟩
    refine ⟨target.parentKey, bind_eq_some_iff.2 ⟨child, hchild, hswallowing⟩, map_eq_some_iff.2 ⟨parent, hget, ?_⟩⟩
    rw [← hwindow]

theorem flaggedParent_eq_some : flaggedParent clients key = some target ↔ ∃ parent, clients.get? key = some parent ∧
    parent.isSwallowed = true ∧ target = { parentKey := key, window := parent.win } := by
  unfold flaggedParent
  rw [bind_eq_some_iff]
  constructor
  · rintro ⟨parent, hget, hflag⟩
    split at hflag
    · exact ⟨parent, hget, ‹_›, (Option.some.inj hflag).symm⟩
    · cases hflag
  · rintro ⟨parent, hget, hflag, rfl⟩
    exact ⟨parent, hget, if_pos hflag⟩

/-- A loop keeps what was planned, adds only candidates and leaves no candidate's parent out. -/
theorem extendPlan_spec : ∀ (order : List ClientKey) (plan : List SwallowedParentHandoff), (plan.map (·.parentKey)).Nodup →
    ((extendPlan candidate order plan).map (·.parentKey)).Nodup ∧ (∀ target ∈ plan, target ∈ extendPlan candidate order plan) ∧
      (∀ target ∈ extendPlan candidate order plan, target ∈ plan ∨ ∃ key ∈ order, candidate key = some target) ∧
      ∀ key ∈ order, ∀ target, candidate key = some target →
        target.parentKey ∈ (extendPlan candidate order plan).map (·.parentKey)
  | [], plan, hnodup => by
    refine ⟨hnodup, fun _ h => h, fun _ h => .inl h, ?_⟩
    rintro key ⟨⟩
  | key :: order, plan, hnodup => by
    rw [extendPlan]
    rcases hcandidate : candidate key with _ | found
    · obtain ⟨hkeys, hkept, honly, hall⟩ := extendPlan_spec order plan hnodup
      refine ⟨hkeys, hkept, fun target htarget => ?_, fun other hother target htarget => ?_⟩
      · rcases honly target htarget with h | ⟨other, hother, h⟩
        · exact .inl h
        · exact .inr ⟨other, mem_cons_of_mem _ hother, h⟩
      · rcases mem_cons.1 hother with rfl | hother
        · rw [hcandidate] at htarget
          cases htarget
        · exact hall other hother target htarget
    · dsimp only
      split
      · rename_i hseen
        obtain ⟨hkeys, hkept, honly, hall⟩ := extendPlan_spec order plan hnodup
        refine ⟨hkeys, hkept, fun target htarget => ?_, fun other hother target htarget => ?_⟩
        · rcases honly target htarget with h | ⟨other, hother, h⟩
          · exact .inl h
          · exact .inr ⟨other, mem_cons_of_mem _ hother, h⟩
        · rcases mem_cons.1 hother with rfl | hother
          · obtain rfl := Option.some.inj (hcandidate.symm.trans htarget)
            obtain ⟨same, hsame, heq⟩ := List.mem_map.1 (contains_iff_mem.1 hseen)
            rw [← heq]
            exact List.mem_map_of_mem (hkept same hsame)
          · exact hall other hother target htarget
      · rename_i hnew
        rw [contains_iff_mem] at hnew
        have hnodup' : ((plan ++ [found]).map (·.parentKey)).Nodup := by
          rw [map_append, nodup_append]
          refine ⟨hnodup, nodup_singleton _, ?_⟩
          rintro a ha b hb rfl
          obtain rfl : a = found.parentKey := by simpa using hb
          exact hnew ha
        obtain ⟨hkeys, hkept, honly, hall⟩ := extendPlan_spec order (plan ++ [found]) hnodup'
        refine ⟨hkeys, fun target htarget => hkept target (mem_append_left _ htarget), fun target htarget => ?_,
          fun other hother target htarget => ?_⟩
        · rcases honly target htarget with h | ⟨other, hother, h⟩
          · rcases mem_append.1 h with h | h
            · exact .inl h
            · obtain rfl := mem_singleton.1 h
              exact .inr ⟨key, mem_cons_self .., hcandidate⟩
          · exact .inr ⟨other, mem_cons_of_mem _ hother, h⟩
        · rcases mem_cons.1 hother with rfl | hother
          · obtain rfl := Option.some.inj (hcandidate.symm.trans htarget)
            exact List.mem_map_of_mem (hkept found (mem_append_right _ (mem_singleton.2 rfl)))
          · exact hall other hother target htarget

theorem plan_nodup (order : List ClientKey) (clients : KeyMap ClientKey SwallowClient) :
    ((swallowedParentHandoffPlan order clients).map (·.parentKey)).Nodup :=
  (extendPlan_spec order _ (extendPlan_spec order [] nodup_nil).1).1

theorem mem_plan (htarget : target ∈ swallowedParentHandoffPlan order clients) :
    SwallowedParent (· ∈ order) clients target.parentKey ∧
      ∃ parent, clients.get? target.parentKey = some parent ∧ target.window = parent.win := by
  obtain ⟨hnodup, -, hlinked, -⟩ := @extendPlan_spec (linkedParent clients) order [] nodup_nil
  obtain ⟨-, -, honly, -⟩ := @extendPlan_spec (flaggedParent clients) order _ hnodup
  rcases honly target htarget with h | ⟨key, hkey, h⟩
  · rcases hlinked target h with h | ⟨key, hkey, h⟩
    · cases h
    · obtain ⟨child, parent, hchild, hswallowing, hget, hwindow⟩ := linkedParent_eq_some.1 h
      exact ⟨.linked key child hkey hchild hswallowing, parent, hget, hwindow⟩
  · obtain ⟨parent, hget, hflag, rfl⟩ := flaggedParent_eq_some.1 h
    exact ⟨.flagged parent hkey hget hflag, parent, hget, rfl⟩

theorem plan_complete {parent : SwallowClient} (hparent : SwallowedParent (· ∈ order) clients key)
    (hget : clients.get? key = some parent) :
    { parentKey := key, window := parent.win } ∈ swallowedParentHandoffPlan order clients := by
  obtain ⟨hnodup, -, -, hlinked⟩ := @extendPlan_spec (linkedParent clients) order [] nodup_nil
  obtain ⟨-, hkept, -, hflagged⟩ := @extendPlan_spec (flaggedParent clients) order _ hnodup
  have hmem : key ∈ (swallowedParentHandoffPlan order clients).map (·.parentKey) := by
    rcases hparent with ⟨childKey, child, hchildKey, hchild, hswallowing⟩ | ⟨flagged, hkey, hgetFlagged, hflag⟩
    · have hcandidate : linkedParent clients childKey = some { parentKey := key, window := parent.win } :=
        linkedParent_eq_some.2 ⟨child, parent, hchild, hswallowing, hget, rfl⟩
      obtain ⟨target, htarget, hkey⟩ := List.mem_map.1 (hlinked childKey hchildKey _ hcandidate)
      exact List.mem_map.2 ⟨target, hkept target htarget, hkey⟩
    · exact hflagged key hkey _ (flaggedParent_eq_some.2 ⟨flagged, hgetFlagged, hflag, rfl⟩)
  obtain ⟨target, htarget, rfl⟩ := List.mem_map.1 hmem
  obtain ⟨-, parent', hget', hwindow⟩ := mem_plan htarget
  obtain rfl := Option.some.inj (hget.symm.trans hget')
  rw [← hwindow]
  exact htarget

end

/-! ## What the server is asked -/

/-- The events are unmaps of these windows, and requests that concern no map. -/
structure Unmaps (windows : List Nat) (events : List HandoffEvent) : Prop where
  unmaps : events.filterMap HandoffEvent.unmapRequest = windows
  maps : events.filterMap HandoffEvent.mapRequest = []
  mapped : events.filterMap HandoffEvent.mapped = []

/-- The clients are as they were, and the log goes on with such events. -/
def Logs {σ : Type} (s s' : HandoffState σ) (P : List HandoffEvent → Prop) : Prop :=
  s'.clients = s.clients ∧ ∃ events, s'.log = s.log ++ events ∧ P events

section

variable {σ : Type} {s s' s'' : HandoffState σ} {P Q : List HandoffEvent → Prop}

theorem Logs.refl (s : HandoffState σ) (h : P []) : Logs s s P := ⟨rfl, [], (append_nil _).symm, h⟩

theorem Logs.trans (h : Logs s s' P) (h' : Logs s' s'' Q) {R : List HandoffEvent → Prop}
    (hR : ∀ events events', P events → Q events' → R (events ++ events')) : Logs s s'' R := by
  obtain ⟨hclients, events, hlog, hP⟩ := h
  obtain ⟨hclients', events', hlog', hQ⟩ := h'
  refine ⟨hclients'.trans hclients, events ++ events', ?_, hR _ _ hP hQ⟩
  rw [hlog', hlog, append_assoc]

theorem Unmaps.append {windows windows' : List Nat} {events events' : List HandoffEvent} (h : Unmaps windows events)
    (h' : Unmaps windows' events') : Unmaps (windows ++ windows') (events ++ events') := by
  constructor
  · rw [filterMap_append, h.unmaps, h'.unmaps]
  · rw [filterMap_append, h.maps, h'.maps, append_nil]
  · rw [filterMap_append, h.mapped, h'.mapped, append_nil]

/-- A request, whatever the answer, leaves the clients alone and one event in the log. -/
theorem attempt_request {α : Type} (ask : σ → Except String α × σ) (event : Except String α → HandoffEvent) (s : HandoffState σ) :
    Ensures (attempt (HandoffWindowOps.request ask event)) s (fun answer s' => Logs s s' (· = [event answer])) fun _ => False := by
  unfold Ensures attempt HandoffWindowOps.request
  rcases hask : ask s.server with ⟨answer, server⟩
  rcases answer with error | a
  · exact ⟨rfl, _, rfl, rfl⟩
  · exact ⟨rfl, _, rfl, rfl⟩

variable (ops : HandoffWindowOps σ)

open HandoffEvent

theorem unmapTargets_spec : ∀ (targets : List SwallowedParentHandoff) (s : HandoffState σ),
    Ensures (unmapTargets ops targets) s (fun _ s' => Logs s s' (Unmaps (targets.map (·.window)))) fun _ => False
  | [], s => Logs.refl s ⟨rfl, rfl, rfl⟩
  | target :: rest, s => by
    have hunmap : ∀ answer : Except String Unit,
        Unmaps [target.window] [unmap target.window .swallowDiscard answer.isOk] := fun _ => ⟨rfl, rfl, rfl⟩
    refine (attempt_request _ _ s).bind (fun answer s' hs' => ?_) fun _ h => h
    have hall : ∀ s'', Logs s' s'' (Unmaps (rest.map (·.window))) → Logs s s'' (Unmaps ((target :: rest).map (·.window))) := by
      intro s'' hs''
      refine hs'.trans hs'' fun events events' hevents hevents' => ?_
      rw [hevents]
      exact (hunmap answer).append hevents'
    rcases answer with error | ⟨⟩
    · exact (unmapTargets_spec rest s').bind (fun _ s'' hs'' => hall s'' hs'') fun _ h => h
    · exact (unmapTargets_spec rest s').mono (fun _ s'' hs'' => hall s'' hs'') fun _ h => h

theorem rollback_spec (attempted : List SwallowedParentHandoff) (s : HandoffState σ) :
    Ensures (rollbackSwallowedParentMaps ops attempted) s
      (fun _ s' => Logs s s' (Unmaps (attempted.map (·.window)).reverse)) fun _ => False := by
  refine (unmapTargets_spec ops attempted.reverse s).bind (fun failures s' hs' => ?_) fun _ h => h
  refine (attempt_request _ _ s').bind (fun answer s'' hs'' => ?_) fun _ h => h
  have hall : Logs s s'' (Unmaps (attempted.map (·.window)).reverse) := by
    refine hs'.trans hs'' fun events events' hevents hevents' => ?_
    rw [hevents', ← map_reverse, ← append_nil (attempted.reverse.map _)]
    exact hevents.append ⟨rfl, rfl, rfl⟩
  rcases answer with error | ⟨⟩
  · exact hall
  · exact hall

theorem rollbackAndFail_spec {α : Type} (attempted : List SwallowedParentHandoff) (message : String) (s : HandoffState σ) :
    Ensures (rollbackAndFail ops attempted message : Handoff σ α) s (fun _ _ => False)
      fun s' => Logs s s' (Unmaps (attempted.map (·.window)).reverse) := by
  exact (rollback_spec ops attempted s).bind (fun _ s' hs' => hs') fun _ h => h.elim

theorem filterMap_maps (targets : List SwallowedParentHandoff) :
    (targets.map fun target => HandoffEvent.map target.window true).filterMap mapRequest = targets.map (·.window) ∧
    (targets.map fun target => HandoffEvent.map target.window true).filterMap mapped = targets.map (·.window) ∧
    (targets.map fun target => HandoffEvent.map target.window true).filterMap unmapRequest = [] := by
  simp only [filterMap_map]
  refine ⟨?_, ?_, ?_⟩
  · exact congrFun filterMap_eq_map targets
  · exact congrFun filterMap_eq_map targets
  · exact filterMap_eq_nil_iff.2 fun _ _ => rfl

theorem unmaps_confirmed (targets : List SwallowedParentHandoff) :
    Unmaps [] (targets.map fun target => .attributes target.window (some true)) := by
  constructor
  · rw [filterMap_map]
    exact filterMap_eq_nil_iff.2 fun _ _ => rfl
  · rw [filterMap_map]
    exact filterMap_eq_nil_iff.2 fun _ _ => rfl
  · rw [filterMap_map]
    exact filterMap_eq_nil_iff.2 fun _ _ => rfl

/-- The maps in order, or those before the one that failed and then their unmaps. -/
theorem mapTargets_spec : ∀ (targets attempted : List SwallowedParentHandoff) (s : HandoffState σ),
    Ensures (mapTargets ops attempted targets) s
      (fun mapped s' => mapped = attempted ++ targets ∧ Logs s s' (· = targets.map fun target => .map target.window true))
      fun s' => Logs s s' fun events => ∃ done target rest undo, targets = done ++ target :: rest ∧
        events = done.map (fun target => HandoffEvent.map target.window true) ++ .map target.window false :: undo ∧
        Unmaps ((attempted ++ done).map (·.window)).reverse undo
  | [], attempted, s => ⟨(List.append_nil _).symm, Logs.refl s rfl⟩
  | target :: rest, attempted, s => by
    refine (attempt_request _ _ s).bind (fun answer s' hs' => ?_) fun _ h => h.elim
    rcases answer with error | ⟨⟩
    · refine (rollbackAndFail_spec ops attempted _ s').mono (fun _ _ h => h.elim) fun s'' hs'' => ?_
      refine hs'.trans hs'' fun events undo hevents hundo => ⟨[], target, rest, undo, rfl, ?_, ?_⟩
      · rw [hevents]
        rfl
      · rw [List.append_nil]
        exact hundo
    · refine (mapTargets_spec rest (attempted ++ [target]) s').mono ?_ fun s'' hs'' => ?_
      · rintro mapped s'' ⟨rfl, hs''⟩
        refine ⟨by rw [List.append_assoc, List.singleton_append], hs'.trans hs'' ?_⟩
        rintro events events' rfl rfl
        rfl
      · refine hs'.trans hs'' ?_
        rintro events events' rfl ⟨done, failed, rest', undo, rfl, rfl, hundo⟩
        refine ⟨target :: done, failed, rest', undo, rfl, rfl, ?_⟩
        rw [List.append_assoc, List.singleton_append] at hundo
        exact hundo

theorem confirmTargets_spec (attempted : List SwallowedParentHandoff) : ∀ (targets : List SwallowedParentHandoff) (s : HandoffState σ),
    Ensures (confirmTargets ops attempted targets) s
      (fun _ s' => Logs s s' (· = targets.map fun target => .attributes target.window (some true)))
      fun s' => Logs s s' fun events => ∃ seen undo, events = seen ++ undo ∧ Unmaps [] seen ∧
        Unmaps (attempted.map (·.window)).reverse undo
  | [], s => Logs.refl s rfl
  | target :: rest, s => by
    have hseen : ∀ viewable, Unmaps [] [attributes target.window viewable] := fun _ => ⟨rfl, rfl, rfl⟩
    have hfail : ∀ {answer : Except String Bool} {s' : HandoffState σ} (message : String),
        Logs s s' (· = [attributes target.window answer.toOption]) →
        Ensures (rollbackAndFail ops attempted message : Handoff σ Unit) s'
          (fun _ s'' => Logs s s'' (· = (target :: rest).map fun target => .attributes target.window (some true)))
          fun s'' => Logs s s'' fun events => ∃ seen undo, events = seen ++ undo ∧ Unmaps [] seen ∧
            Unmaps (attempted.map (·.window)).reverse undo := by
      intro answer s' message hs'
      refine (rollbackAndFail_spec ops attempted message s').mono (fun _ _ h => h.elim) fun s'' hs'' => ?_
      refine hs'.trans hs'' fun events undo hevents hundo => ⟨events, undo, rfl, ?_, hundo⟩
      rw [hevents]
      exact hseen _
    refine (attempt_request _ _ s).bind (fun answer s' hs' => ?_) fun _ h => h.elim
    rcases answer with error | viewable
    · exact hfail _ hs'
    · cases viewable with
      | false => exact hfail _ hs'
      | true =>
        refine (confirmTargets_spec attempted rest s').mono (fun _ s'' hs'' => ?_) fun s'' hs'' => ?_
        · refine hs'.trans hs'' ?_
          rintro events events' rfl rfl
          rfl
        · refine hs'.trans hs'' ?_
          rintro events events' rfl ⟨seen, undo, rfl, hquiet, hundo⟩
          exact ⟨_ :: seen, undo, rfl, (hseen _).append hquiet, hundo⟩

end

/-! ## The handoff as a whole -/

/-- The maps asked for are of distinct live clients of the order that swallowing hid. -/
structure MapsOnlyParents (order : List ClientKey) (clients : KeyMap ClientKey SwallowClient) (log : List HandoffEvent) : Prop where
  parents : ∃ keys : List ClientKey, keys.Nodup ∧
    (∀ key ∈ keys, SwallowedParent (· ∈ order) clients key ∧ ∃ parent, clients.get? key = some parent) ∧
    log.filterMap HandoffEvent.mapRequest = keys.filterMap fun key => (clients.get? key).map (·.win)
  once : (∀ key client key' client', clients.get? key = some client → clients.get? key' = some client' →
    client.win = client'.win → key = key') → (log.filterMap HandoffEvent.mapRequest).Nodup

/-- A window was mapped before the flush and seen viewable after it. -/
def MappedAndSeen (log : List HandoffEvent) (window : Nat) : Prop :=
  ∃ before after, log = before ++ .flush true :: after ∧ .map window true ∈ before ∧ .attributes window (some true) ∈ after

/-- Every parent is on the screen, and nothing but links and flags has changed. -/
structure HandedOver {σ : Type} (order : List ClientKey) (clients : KeyMap ClientKey SwallowClient) (s : HandoffState σ) : Prop where
  seen : ∀ key parent, SwallowedParent (· ∈ order) clients key → clients.get? key = some parent → MappedAndSeen s.log parent.win
  unlinked : ∀ key client, s.clients.get? key = some client → client.swallowing = none
  unflagged : ∀ key ∈ order, ∀ client, s.clients.get? key = some client → client.isSwallowed = false
  rest : ∀ key, (s.clients.get? key).map (·.unlink.unflag) = (clients.get? key).map (·.unlink.unflag)

/-- No client has changed, and what was mapped was asked to unmap, last first. -/
structure HandoffUndone {σ : Type} (clients : KeyMap ClientKey SwallowClient) (s : HandoffState σ) : Prop where
  clients : s.clients = clients
  undone : s.log.filterMap HandoffEvent.unmapRequest = (s.log.filterMap HandoffEvent.mapped).reverse

section

variable {order : List ClientKey} {clients : KeyMap ClientKey SwallowClient}

theorem mapsOnlyParents {log : List HandoffEvent}
    (h : log.filterMap HandoffEvent.mapRequest <+: (swallowedParentHandoffPlan order clients).map (·.window)) :
    MapsOnlyParents order clients log := by
  have hwindow : ∀ target ∈ swallowedParentHandoffPlan order clients,
      (clients.get? target.parentKey).map (·.win) = some target.window := by
    intro target htarget
    obtain ⟨-, parent, hget, hwin⟩ := mem_plan htarget
    rw [hget, map_some, hwin]
  constructor
  · obtain ⟨n, hn⟩ : ∃ n, log.filterMap HandoffEvent.mapRequest =
        ((swallowedParentHandoffPlan order clients).take n).map (·.window) :=
      ⟨_, by rw [map_take]; exact prefix_iff_eq_take.1 h⟩
    refine ⟨((swallowedParentHandoffPlan order clients).take n).map (·.parentKey), ?_, ?_, ?_⟩
    · exact ((take_sublist _ _).map _).nodup (plan_nodup order clients)
    · intro key hkey
      obtain ⟨target, htarget, rfl⟩ := List.mem_map.1 hkey
      obtain ⟨hparent, parent, hget, -⟩ := mem_plan (mem_of_mem_take htarget)
      exact ⟨hparent, parent, hget⟩
    · rw [hn, filterMap_map]
      symm
      rw [← filterMap_eq_map]
      exact filterMap_congr fun target htarget => hwindow target (mem_of_mem_take htarget)
  · intro hdistinct
    refine h.sublist.nodup ?_
    refine List.Nodup.map_on (fun target htarget target' htarget' heq => ?_) (List.Nodup.of_map _ (plan_nodup order clients))
    obtain ⟨-, parent, hget, hwin⟩ := mem_plan htarget
    obtain ⟨-, parent', hget', hwin'⟩ := mem_plan htarget'
    have hkey := hdistinct _ _ _ _ hget hget' (hwin.symm.trans (heq.trans hwin'))
    cases target
    cases target'
    exact congrArg₂ SwallowedParentHandoff.mk hkey heq

open SwallowClient

theorem get?_clearLinks (clients : KeyMap ClientKey SwallowClient) (key : ClientKey) :
    (clearLinks clients).get? key = (clients.get? key).map unlink :=
  KeyMap.get?_mapValues _ _ _

theorem get?_clearFlags (key : ClientKey) : ∀ (plan : List SwallowedParentHandoff) (clients : KeyMap ClientKey SwallowClient),
    (clearFlags clients plan).get? key = if key ∈ plan.map (·.parentKey) then
      (clients.get? key).map unflag else clients.get? key
  | [], _ => rfl
  | target :: plan, clients => by
    have ih := get?_clearFlags key plan (clients.modify target.parentKey unflag)
    rw [KeyMap.get?_modify] at ih
    show (clearFlags (clients.modify target.parentKey unflag) plan).get? key = _
    rw [ih, map_cons]
    by_cases hkey : key = target.parentKey
    · rw [if_pos hkey, if_pos (mem_cons.2 (.inl hkey)), Option.map_map]
      split
      · rfl
      · rfl
    · rw [if_neg hkey]
      simp [hkey]

theorem handedOver {σ : Type} {s : HandoffState σ}
    (hclients : s.clients = clearFlags (clearLinks clients) (swallowedParentHandoffPlan order clients))
    (hseen : ∀ target ∈ swallowedParentHandoffPlan order clients, MappedAndSeen s.log target.window) : HandedOver order clients s := by
  have hget : ∀ key, s.clients.get? key = if key ∈ (swallowedParentHandoffPlan order clients).map (·.parentKey) then
      ((clients.get? key).map unlink).map unflag
      else (clients.get? key).map unlink := by
    intro key
    rw [hclients, get?_clearFlags, get?_clearLinks]
  constructor
  · intro key parent hparent hlive
    exact hseen _ (plan_complete hparent hlive)
  · intro key client hclient
    rw [hget key] at hclient
    split at hclient
    · rw [Option.map_map] at hclient
      obtain ⟨before, -, rfl⟩ := map_eq_some_iff.1 hclient
      rfl
    · obtain ⟨before, -, rfl⟩ := map_eq_some_iff.1 hclient
      rfl
  · intro key hkey client hclient
    rw [hget key] at hclient
    split at hclient
    · rw [Option.map_map] at hclient
      obtain ⟨before, -, rfl⟩ := map_eq_some_iff.1 hclient
      rfl
    · rename_i hout
      obtain ⟨before, hbefore, rfl⟩ := map_eq_some_iff.1 hclient
      -- a flagged client of the order would be in the plan
      refine Bool.eq_false_iff.2 fun hflag => hout ?_
      exact List.mem_map_of_mem (plan_complete (.flagged before hkey hbefore hflag) hbefore)
  · intro key
    rw [hget key]
    split
    · rw [Option.map_map, Option.map_map]
      rfl
    · rw [Option.map_map]
      rfl

/-- All or nothing: a handoff that succeeds has every parent of the order mapped and seen, one that fails has changed no client and asked
for every map to be undone. -/
theorem swallowed_handoff_all_or_nothing {σ : Type} (ops : HandoffWindowOps σ) (order : List ClientKey)
    (clients : KeyMap ClientKey SwallowClient) (server : σ) :
    Ensures (mapSwallowedParentsForHandoff ops order) { server, log := [], clients }
      (fun _ s => MapsOnlyParents order clients s.log ∧ HandedOver order clients s)
      fun s => MapsOnlyParents order clients s.log ∧ HandoffUndone clients s := by
  refine ensures_bind (ensures_get ?_)
  refine ensures_ite (fun hempty => ?_) fun _ => ?_
  · have hplan := List.isEmpty_iff.1 hempty
    refine ensures_bind (ensures_modify ?_)
    refine ⟨mapsOnlyParents List.nil_prefix, handedOver ?_ ?_⟩
    · rw [hplan]
      rfl
    · rw [hplan]
      rintro target ⟨⟩
  · refine (mapTargets_spec ops (swallowedParentHandoffPlan order clients) [] _).bind ?_ ?_
    · rintro mapped s ⟨rfl, hmaps⟩
      obtain ⟨hmapRequests, hmapped, hunmaps⟩ := filterMap_maps (swallowedParentHandoffPlan order clients)
      -- what is asked after the maps and ends in the unmaps of all
      have hfailed : ∀ {s' : HandoffState σ}, Logs s s' (fun events => ∃ seen undo, events = seen ++ undo ∧ Unmaps [] seen ∧
          Unmaps ((swallowedParentHandoffPlan order clients).map (·.window)).reverse undo) →
          MapsOnlyParents order clients s'.log ∧ HandoffUndone clients s' := by
        rintro s' ⟨hclients, -, hlog, seen, undo, rfl, hseen, hundo⟩
        obtain ⟨hclients', -, hlog', rfl⟩ := hmaps
        rw [hlog', nil_append] at hlog
        refine ⟨mapsOnlyParents ?_, hclients.trans hclients', ?_⟩
        · have hrequests : s'.log.filterMap HandoffEvent.mapRequest = (swallowedParentHandoffPlan order clients).map (·.window) := by
            rw [hlog, filterMap_append, filterMap_append, hmapRequests, hseen.maps, hundo.maps, append_nil, append_nil]
          exact hrequests ▸ prefix_rfl
        · simp only [hlog, filterMap_append, hunmaps, hmapped, hseen.unmaps, hundo.unmaps, hseen.mapped, hundo.mapped,
            nil_append, append_nil]
      refine (attempt_request _ _ s).bind (fun answer s' hs' => ?_) fun _ h => h.elim
      rcases answer with error | ⟨⟩
      · refine (rollbackAndFail_spec ops _ _ s').mono (fun _ _ h => h.elim) fun s'' hs'' => hfailed ?_
        refine hs'.trans hs'' fun events undo hevents hundo => ⟨events, undo, rfl, ?_, hundo⟩
        rw [hevents]
        exact ⟨rfl, rfl, rfl⟩
      · refine (confirmTargets_spec ops _ _ s').bind (fun _ s'' hs'' => ?_) fun s'' hs'' => hfailed ?_
        · refine ensures_bind (ensures_modify ?_)
          obtain ⟨hclients, -, hlog, rfl⟩ := hmaps
          obtain ⟨hclients', -, hlog', rfl⟩ := hs'
          obtain ⟨hclients'', -, hlog'', rfl⟩ := hs''
          rw [hlog', hlog, nil_append] at hlog''
          refine ⟨mapsOnlyParents ?_, handedOver ?_ fun target htarget => ?_⟩
          · rw [hlog'', filterMap_append, filterMap_append, hmapRequests, (unmaps_confirmed _).maps, append_nil]
            exact ⟨[], by simp [HandoffEvent.mapRequest]⟩
          · rw [hclients'', hclients', hclients]
          · refine ⟨_, _, by rw [hlog'', append_assoc]; rfl, ?_, ?_⟩
            · exact List.mem_map.2 ⟨target, htarget, rfl⟩
            · exact List.mem_map.2 ⟨target, htarget, rfl⟩
        · refine hs'.trans hs'' ?_
          rintro events events' rfl ⟨seen, undo, rfl, hseen, hundo⟩
          exact ⟨_ :: seen, undo, rfl, (Unmaps.append ⟨rfl, rfl, rfl⟩ hseen : Unmaps ([] ++ []) ([_] ++ seen)), hundo⟩
    · rintro s ⟨hclients, -, hlog, done, target, rest, undo, hplan, rfl, hundo⟩
      obtain ⟨hmapRequests, hmapped, hunmaps⟩ := filterMap_maps done
      rw [nil_append] at hlog hundo
      refine ⟨mapsOnlyParents ?_, hclients, ?_⟩
      · rw [hlog, filterMap_append, hmapRequests, hplan, map_append, map_cons]
        refine prefix_append_right_inj _ |>.2 ?_
        show target.window :: undo.filterMap HandoffEvent.mapRequest <+: _
        rw [hundo.maps]
        exact ⟨rest.map (·.window), rfl⟩
      · rw [hlog, filterMap_append, filterMap_append, hunmaps, hmapped, nil_append]
        show undo.filterMap HandoffEvent.unmapRequest = (done.map (·.window) ++ undo.filterMap HandoffEvent.mapped).reverse
        rw [hundo.unmaps, hundo.mapped, append_nil]

end

namespace Sample

def obliging : HandoffWindowOps Unit where
  mapWindow _ server := (.ok (), server)
  flush server := (.ok (), server)
  getWindowAttributes _ server := (.ok true, server)
  unmapManagedWindow _ _ server := (.ok (), server)

def onMonitor (win : Nat) (swallowing : Option ClientKey) : SwallowClient where
  win := win
  swallowing := swallowing
  client := plainClient ⟨0, 1⟩

def swallowed : KeyMap ClientKey SwallowClient :=
  (KeyMap.empty.insert ⟨0, 1⟩ (onMonitor 0x51 none)).insert ⟨1, 1⟩ (onMonitor 0x61 (some ⟨0, 1⟩))

end Sample

open Sample

/-- A link of a client that the order leaves out is cleared, and its parent is not mapped. -/
theorem unlisted_link_not_mapped :
    ¬ Ensures (mapSwallowedParentsForHandoff Sample.obliging []) { server := (), log := [], clients := Sample.swallowed }
      (fun _ s => ∀ key parent, SwallowedParent (fun _ => True) swallowed key → swallowed.get? key = some parent →
        MappedAndSeen s.log parent.win)
      fun _ => True := by
  intro h
  have hseen : ∀ key parent, SwallowedParent (fun _ => True) swallowed key → swallowed.get? key = some parent →
      MappedAndSeen [] parent.win := h
  obtain ⟨before, after, hlog, -⟩ := hseen ⟨0, 1⟩ (onMonitor 0x51 none)
    (.linked ⟨1, 1⟩ (onMonitor 0x61 (some ⟨0, 1⟩)) trivial rfl rfl) rfl
  cases before with
  | nil | cons event before => cases hlog

end Jwm
