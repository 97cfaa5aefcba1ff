/-
Sending a client to another monitor (`jwm/tag_manager.rs`, `sendmon_impl`), with what it uses of the
focus stack (`jwm/client_stack.rs`) and of focus itself (`jwm/focus.rs`, `jwm/focus_manager.rs`), and what
follows the tags a monitor views.
-/
import Jwm.Wm.Outputs

namespace Jwm

/-! ## Visible clients -/

section

variable (s : WMState)

def isClientVisibleOnMonitor (key : ClientKey) (mon : MonitorKey) : Bool :=
  match s.clients.get? key, s.monitors.get? mon with
  | some client, some monitor =>
    !(client.state.isSwallowed || client.state.isHidden) &&
      (client.state.isSticky || client.state.tags &&& monitor.activeTags != 0)
  | _, _ => false

def showsTiled (mon : MonitorKey) (key : ClientKey) : Bool :=
  isClientVisibleOnMonitor s key mon && !s.isClientFloating key

/-- The visible tiles of a monitor, in the order of its list. -/
def tiledKeys (mon : MonitorKey) : List ClientKey :=
  ((s.monitorClients.get? mon).getD []).filter (showsTiled s mon)

def isClientVisibleByKey (key : ClientKey) : Bool :=
  ((s.clients.get? key).bind (·.mon)).any fun mon => isClientVisibleOnMonitor s key mon

def isApplicationFocusEligible (key : ClientKey) : Bool :=
  (s.clients.get? key).any fun client => !client.state.isDock && !client.state.isDesktop

def findNextVisibleClientByMon (mon : MonitorKey) : Option ClientKey :=
  ((s.monitorStack.get? mon).getD []).find? fun key => isClientVisibleOnMonitor s key mon

def findVisibleClient (locked : MonitorKey → Bool) (s : WMState) : Option ClientKey :=
  match s.selMon with
  | none => none
  | some mon =>
    if locked mon then none
    else ((s.monitorStack.get? mon).getD []).find? fun key =>
      isApplicationFocusEligible s key && isClientVisibleByKey s key

/-! ## The focus stack -/

def attachstack (key : ClientKey) : WMState :=
  match s.monOf key with
  | none => s
  | some mon => { s with monitorStack := s.monitorStack.modify mon (key :: ·) }

def detachstack (key : ClientKey) : WMState :=
  match s.monOf key with
  | none => s
  | some mon =>
    let s := { s with monitorStack := s.monitorStack.modify mon (·.erase key) }
    let next := findNextVisibleClientByMon s mon
    { s with monitors := s.monitors.modify mon fun m => if m.sel = some key then { m with sel := next } else m }

/-! ## Focus -/

/-- Whether the backend takes the focus from one window and gives it to another (or to the root). -/
structure FocusOutcome where
  unfocused : Bool
  focused : Bool

def setClientFocusByKey (key : ClientKey) : WMState :=
  match s.monOf key with
  | none => s
  | some mon => attachstack (detachstack { s with selMon := some mon } key) key

def updateMonitorSelection (client : Option ClientKey) : WMState :=
  match s.selMon with
  | none => s
  | some mon => { s with monitors := s.monitors.modify mon (·.setSelectedClientForCurrentTag client) }

/-- `focus(None)`: the topmost visible client of the selected monitor, or none. -/
def focusNone (locked : MonitorKey → Bool) (ok : FocusOutcome) (s : WMState) : WMState :=
  let client := findVisibleClient locked s
  let current := (s.selMon.bind s.monitors.get?).bind (·.sel)
  if current.isSome && current != client && !ok.unfocused then s
  else
    let s := (client.map (setClientFocusByKey s)).getD s
    if ok.focused then updateMonitorSelection s client else s

/-! ## Viewed tags -/

def getSelectedClientForCurrentTag (monitor : WMMonitor) : Option ClientKey :=
  monitor.pertag.bind fun p => (p.sel[p.clampTag p.curTag]?).join

/-- `update_sticky_tags`: the sticky clients of the monitor follow its view. -/
def updateStickyTags (mon : MonitorKey) : WMState :=
  match s.monitors.get? mon with
  | none => s
  | some monitor =>
    ((s.monitorClients.get? mon).getD []).foldl (fun s k => s.modifyClient k fun c =>
      if c.state.isSticky then { c with state := { c.state with tags := monitor.activeTags } } else c) s

end

/-! ## Sending -/

/-- `sendmon_impl`, the state it leaves; `place` is where the client lands on the other monitor. -/
def sendmon (locked : MonitorKey → Bool) (place : ClientGeometry → ClientGeometry) (ok : FocusOutcome) (s : WMState)
    (key : ClientKey) (target : MonitorKey) : WMState :=
  match s.monitors.get? target, s.clients.get? key with
  | some targetMonitor, some client =>
    if client.mon = some target then s
    else
      let s := detachstack (detach s key) key
      let s := match client.mon with
        | none => s
        | some source => { s with monitors := s.monitors.modify source (·.clearSelectionOf key) }
      let s := s.modifyClient key fun client =>
        { client with
          mon := some target
          state := { client.state with tags := targetMonitor.activeTags }
          geometry := place client.geometry }
      focusNone locked ok (attachstack (attachBack s key) key)
  | _, _ => s

end Jwm
