/-
Operations on the monitors' client lists (`jwm/client_stack.rs`) and the part of
`set_client_maximized_inner` that commits a plan (`jwm/maximize.rs`, step (g)).
-/
import Jwm.Core.Maximize
import Jwm.Wm.RestoreAnchor

namespace Jwm

/-- Where a freshly managed window is inserted (`config::NewClientPosition`). -/
inductive NewClientPosition where
  | master | tail | afterFocused
deriving DecidableEq

/-- Index at which a new client joins a list of `len` entries whose floating group starts at
`firstFloating`. -/
def newClientInsertIndex (position : NewClientPosition) (len firstFloating : Nat) (isFloating : Bool)
    (selIndex : Option Nat) : Nat :=
  let firstFloating := min firstFloating len
  let (groupStart, groupEnd) := if isFloating then (firstFloating, len) else (0, firstFloating)
  match position with
  | .afterFocused => ((selIndex.filter fun idx => groupStart ≤ idx && idx < groupEnd).map (· + 1)).getD groupStart
  | _ => groupStart

/-! ## Regrouping -/

/-- `reorder_client_in_monitor_groups`: an attached client moves to the end of its group. -/
def reorderClientInMonitorGroups (s : WMState) (clientKey : ClientKey) : WMState :=
  match s.clients.get? clientKey with
  | none => s
  | some client =>
    match client.mon with
    | none => s
    | some mon =>
      match s.monitorClients.get? mon with
      | none => s
      | some clients =>
        match clients.idxOf? clientKey with
        | none => s
        | some pos =>
          let clients := clients.eraseIdx pos
          if client.state.isFloating then s.setList mon (clients ++ [clientKey])
          else
            let insertPos := (clients.findIdx? s.isClientFloating).getD clients.length
            s.setList mon (clients.insertIdx insertPos clientKey)

theorem eraseIdx_of_idxOf? {l : List ClientKey} {k : ClientKey} {pos : Nat} (h : l.idxOf? k = some pos) :
    l.eraseIdx pos = l.erase k := by
  rw [List.erase_eq_eraseIdx, h]

variable {s : WMState} {key : ClientKey} {mon : MonitorKey} {list : List ClientKey}

theorem reorder_eq {client : WMClient}
    (hc : s.clients.get? key = some client) (hm : client.mon = some mon) (hl : s.monitorClients.get? mon = some list)
    (hk : key ∈ list) :
    reorderClientInMonitorGroups s key = s.setList mon (if client.state.isFloating then list.erase key ++ [key] else
      (list.erase key).insertIdx (((list.erase key).findIdx? s.isClientFloating).getD (list.erase key).length) key) := by
  obtain ⟨pos, hp⟩ : ∃ pos, list.idxOf? key = some pos := by
    cases h : list.idxOf? key with
    | none => rw [List.idxOf?_eq_none_iff] at h; exact absurd hk h
    | some pos => exact ⟨pos, rfl⟩
  simp only [reorderClientInMonitorGroups, hc, hm, hl, hp, eraseIdx_of_idxOf? hp]
  split <;> rfl

theorem reorder_unlisted (hm : s.monOf key = some mon) (hl : s.monitorClients.get? mon = some list) (hk : key ∉ list) :
    reorderClientInMonitorGroups s key = s := by
  unfold WMState.monOf at hm
  cases hc : s.clients.get? key with
  | none => rw [hc] at hm; cases hm
  | some client =>
    rw [hc] at hm
    have hp : list.idxOf? key = none := List.idxOf?_eq_none_iff.2 hk
    simp only [Option.bind_some] at hm
    simp only [reorderClientInMonitorGroups, hc, hm, hl, hp]

/-! ## Attach and detach -/

def attachBack (s : WMState) (clientKey : ClientKey) : WMState :=
  let s := match s.monOf clientKey with
    | none => s
    | some mon => { s with monitorClients := s.monitorClients.modify mon (· ++ [clientKey]) }
  reorderClientInMonitorGroups s clientKey

def attachNewClient (s : WMState) (position : NewClientPosition) (clientKey : ClientKey) : WMState :=
  if position = .tail then attachBack s clientKey
  else
    match s.monOf clientKey with
    | none => s
    | some mon =>
      let isFloating := s.isClientFloating clientKey
      match s.monitorClients.get? mon with
      | none => s
      | some clients =>
        let firstFloating := (clients.findIdx? s.isClientFloating).getD clients.length
        let selIndex := (((s.monitors.get? mon).bind (·.sel)).filter fun sel =>
          sel != clientKey && s.isClientFloating sel == isFloating).bind fun sel => clients.idxOf? sel
        let insertPos := newClientInsertIndex position clients.length firstFloating isFloating selIndex
        s.setList mon (clients.insertIdx insertPos clientKey)

def detach (s : WMState) (clientKey : ClientKey) : WMState :=
  match s.monOf clientKey with
  | none => s
  | some mon =>
    let s := spliceRestoreAnchors s mon clientKey
    match s.monitorClients.get? mon with
    | none => s
    | some clients =>
      match clients.idxOf? clientKey with
      | none => s
      | some pos => s.setList mon (clients.eraseIdx pos)

/-- `detach_from_monitor`: drop the client from `mon`'s client list and focus stack, whichever
monitor the client itself names. -/
def detachFromMonitor (s : WMState) (clientKey : ClientKey) (mon : MonitorKey) : WMState :=
  let s := spliceRestoreAnchors s mon clientKey
  { s with
    monitorClients := s.monitorClients.modify mon fun clients => clients.filter (· != clientKey)
    monitorStack := s.monitorStack.modify mon fun stack => stack.filter (· != clientKey) }

def attachToMonitor (s : WMState) (clientKey : ClientKey) (mon : MonitorKey) : WMState :=
  reorderClientInMonitorGroups
    { s with
      monitorClients := s.monitorClients.modify mon (· ++ [clientKey])
      monitorStack := s.monitorStack.modify mon (clientKey :: ·) }
    clientKey

/-! ## Committing a maximize plan -/

/-- The client as `set_client_maximized_inner` commits it. -/
def commitClient (client : WMClient) (plan : MaximizePlan) (slot : RestingSlot) (promote retile suspended : Bool)
    (anchor : Option ClientKey) : WMClient :=
  let exiting := !plan.axes.any
  let st := client.state.setMaximizedAxes plan.axes
  let st := if promote then
    { st with maximizeRestoreTiled := true, maximizeRestoreAnchor := anchor, isFloating := true, isDragFloating := false }
    else st
  let st := if retile then
    -- fullscreen and PiP still own `is_floating`; the retile lands when that mode exits
    if suspended then { st with oldState := false }
    else { st with isFloating := false, isDragFloating := false }
    else st
  let st := if exiting then { st with maximizeRestoreTiled := false, maximizeRestoreAnchor := none } else st
  let geometry := { client.geometry with maximizeRestoreRect := plan.restoreRect }
  -- a plain floating client's floating slot mirrors the restore rect
  let geometry :=
    if slot != .pipReturn && !st.maximizeRestoreTiled then
      match plan.restoreRect with
      | some restoreRect => { geometry with floatingRect := restoreRect }
      | none => if !retile then { geometry with floatingRect := plan.restingRect } else geometry
    else geometry
  { client with state := st, geometry := geometry }

/-- Step (g) of `set_client_maximized_inner`: write the client and regroup it when its floating flag
changed. `none` is "Client not found". -/
def commitMaximize (s : WMState) (clientKey : ClientKey) (admission : MaximizeAdmission) (plan : MaximizePlan)
    (slot : RestingSlot) : Option WMState :=
  match s.clients.get? clientKey with
  | none => none
  | some client =>
    let mon := client.mon
    let suspended := client.state.isFullscreen || client.state.isPip
    let attached := mon.any fun mon => (s.monitorClients.get? mon).any (·.contains clientKey)
    let promote := admission == .promote
    let exiting := !plan.axes.any
    let retile := exiting && client.state.maximizeRestoreTiled
    let anchor := if promote && attached then mon.bind (restoreAnchorAfter s · clientKey) else none
    -- what `take()` finds: a promotion that exits at once would hand back the anchor it just wrote
    let restoreAnchor :=
      if exiting then if promote then anchor else client.state.maximizeRestoreAnchor else none
    let committed := commitClient client plan slot promote retile suspended anchor
    let s := s.modifyClient clientKey fun _ => committed
    if (committed.state.isFloating != client.state.isFloating) && attached then
      let backInSlot := if retile && !suspended then mon.bind (retileBeforeAnchor s · clientKey restoreAnchor) else none
      some (backInSlot.getD (reorderClientInMonitorGroups s clientKey))
    else some s

/-- A tile leaves the layout for maximize: its anchor is recorded, then it joins the floating tail. -/
def promote (s : WMState) (clientKey : ClientKey) (plan : MaximizePlan) (slot : RestingSlot) : WMState :=
  let anchor := (s.monOf clientKey).bind (restoreAnchorAfter s · clientKey)
  reorderClientInMonitorGroups
    (s.modifyClient clientKey fun client => commitClient client plan slot true false false anchor) clientKey

/-- A promoted window leaves maximize: it goes back in front of its anchor, or to the end of the
tiled group. -/
def unpromote (s : WMState) (clientKey : ClientKey) (plan : MaximizePlan) (slot : RestingSlot) : WMState :=
  let anchor := (s.clients.get? clientKey).bind (·.state.maximizeRestoreAnchor)
  let s := s.modifyClient clientKey fun client => commitClient client plan slot false true false none
  ((s.monOf clientKey).bind (retileBeforeAnchor s · clientKey anchor)).getD (reorderClientInMonitorGroups s clientKey)

end Jwm
