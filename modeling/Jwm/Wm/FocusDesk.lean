/-
Keyboard focus (`jwm/focus.rs`, `jwm/focus_manager.rs`) and the commands that move it: switching and toggling tags
(`jwm/navigation.rs`), and moving a client to a tag or to another monitor (`jwm/tag_manager.rs`). Beside the window
manager's state, the window the backend was last told to focus and how each client was last decorated.
-/
import Jwm.Wm.Sendmon

namespace Jwm

abbrev WindowId := BitVec 64

/-! ## The desk -/

structure Desk where
  wm : WMState
  /-- `is_urgent` and `demands_attention` of each client. -/
  urgent : ClientKey → Bool
  demandsAttention : ClientKey → Bool
  /-- The window last given to `on_focused_client_changed`. -/
  focused : Option WindowId
  /-- The client was last decorated as focused. -/
  decorated : ClientKey → Bool

/-- What does not change with the focus: the clients' windows and the locked monitors. -/
structure DeskContext where
  window : ClientKey → WindowId
  locked : MonitorKey → Bool

/-- What one call reads of the configuration and the backend. -/
structure DeskReading where
  tagmask : BitVec 32
  hasCompositor : Bool
  /-- The urgency that reading `WM_HINTS` back answers. -/
  urgentHint : ClientKey → Bool
  /-- Where a client lands on another monitor; focus does not depend on it. -/
  place : ClientGeometry → ClientGeometry

namespace Desk

variable (ctx : DeskContext) (r : DeskReading) (d : Desk)

/-- `get_selected_client_key`. -/
def selected : Option ClientKey := (d.wm.selMon.bind d.wm.monitors.get?).bind (·.sel)

section

variable (key : ClientKey)

def isAlive : Bool := (d.wm.clients.get? key).isSome

/-- `client_is_on_locked_monitor`. -/
def clientIsOnLockedMonitor : Bool := (d.wm.monOf key).any ctx.locked

/-! ## Decoration and the backend's focus -/

/-- `update_client_decoration`, for a client that is alive. -/
def updateClientDecoration (isFocused : Bool) : Desk :=
  { d with decorated := Function.update d.decorated key isFocused }

def unfocusClient (setfocus : Bool) : Desk :=
  if d.isAlive key then
    let d := d.updateClientDecoration key false
    if setfocus then { d with focused := none } else d
  else d

def setfocus : Desk :=
  if d.isAlive key then { d with focused := some (ctx.window key) } else d

def setRootFocus : Desk := { d with focused := none }

/-- `seturgent(false)`; without a compositor the border is drawn again. -/
def clearUrgent : Desk :=
  let d := { d with urgent := Function.update d.urgent key false }
  if r.hasCompositor then d else d.updateClientDecoration key (d.selected == some key)

/-- `set_client_demands_attention(false)`. -/
def clearDemandsAttention : Desk :=
  let d := { d with
    demandsAttention := Function.update d.demandsAttention key false
    urgent := Function.update d.urgent key (r.urgentHint key) }
  if r.hasCompositor then d else d.updateClientDecoration key (d.selected == some key)

/-- A window that gets the focus calls for attention no more. -/
def clearAttention : Desk :=
  let d := if d.urgent key then d.clearUrgent r key else d
  if d.demandsAttention key then d.clearDemandsAttention r key else d

/-! ## Focus -/

def handleFocusChangeByKey (newFocus : Option ClientKey) : Desk :=
  match d.selected with
  | none => d
  | some current => if some current = newFocus then d else d.unfocusClient current false

def setClientFocusByKey : Desk × Except String Unit :=
  match d.wm.clients.get? key with
  | none => (d, .error "Client not found")
  | some client =>
    let d := { d with wm := { d.wm with selMon := client.mon.or d.wm.selMon } }
    let d := d.clearAttention r key
    let d := { d with wm := attachstack (detachstack d.wm key) key }
    ((d.updateClientDecoration key true).setfocus ctx key, .ok ())

/-- The client that `focus` settles on: the one it is given if it may have the focus and shows, else the
topmost that does. -/
def focusTarget (client : Option ClientKey) : Option ClientKey :=
  let client := client.filter fun key => !d.clientIsOnLockedMonitor ctx key
  let client := client.filter fun key => isApplicationFocusEligible d.wm key && isClientVisibleByKey d.wm key
  client.or (findVisibleClient ctx.locked d.wm)

def focus (client : Option ClientKey) : Desk × Except String Unit :=
  let client := d.focusTarget ctx client
  let d := d.handleFocusChangeByKey client
  match client with
  | some key =>
    match d.setClientFocusByKey ctx r key with
    | (d, .error error) => (d, .error error)
    | (d, .ok ()) => ({ d with wm := updateMonitorSelection d.wm (some key) }, .ok ())
  | none =>
    let d := d.setRootFocus
    ({ d with wm := updateMonitorSelection d.wm none }, .ok ())

def focusNone : Desk :=
  let d := match d.selected with
    | some key => d.unfocusClient key true
    | none => d
  let d := d.setRootFocus
  { d with wm := updateMonitorSelection d.wm none }

/-! ## Tags -/

def viewOnMonitor (mon : MonitorKey) (ui : BitVec 32) : Desk × Except String Unit :=
  let targetMask := ui &&& r.tagmask
  if targetMask = 0 then (d, .ok ())
  else if (d.wm.monitors.get? mon).any (·.activeTags == targetMask) then (d, .ok ())
  else
    let wm := { d.wm with monitors := d.wm.monitors.modify mon fun m => (m.viewTag targetMask false).1 }
    -- the slot may still name a client that has gone to another monitor
    let clientToFocus := ((wm.monitors.get? mon).bind getSelectedClientForCurrentTag).filter fun key =>
      wm.monOf key == some mon
    let d : Desk := { d with wm := updateStickyTags wm mon }
    if d.wm.selMon = some mon then d.focus ctx r clientToFocus else (d, .ok ())

/-- `none` is an argument that is no mask. -/
def view (arg : Option (BitVec 32)) : Desk × Except String Unit :=
  match arg, d.wm.selMon with
  | some ui, some mon => d.viewOnMonitor ctx r mon ui
  | _, _ => (d, .ok ())

def toggleview (arg : Option (BitVec 32)) : Desk × Except String Unit :=
  match arg with
  | none => (d, .ok ())
  | some ui =>
    let mask := ui &&& r.tagmask
    if mask = 0 then (d, .ok ())
    else
      match d.wm.selMon with
      | none => (d, .error "No monitor selected")
      | some mon =>
        let wm := { d.wm with monitors := d.wm.monitors.modify mon fun m => (m.viewTag mask true).1 }
        let d : Desk := { d with wm := updateStickyTags wm mon }
        d.focus ctx r none

def setTags (tags : BitVec 32) : Desk :=
  { d with wm := d.wm.modifyClient key fun client => { client with state := { client.state with tags := tags } } }

def toggletag (arg : Option (BitVec 32)) : Desk × Except String Unit :=
  match d.selected, arg with
  | some key, some ui =>
    match d.wm.clients.get? key with
    | none => (d, .ok ())
    | some client =>
      let newtags := client.state.tags ^^^ (ui &&& r.tagmask)
      if newtags = 0 then (d, .ok ())
      else if newtags = client.state.tags then (d, .ok ())
      else (d.setTags key newtags).focus ctx r none
  | _, _ => (d, .ok ())

def moveClientToTag (targetTag : BitVec 32) : Desk × Except String Unit :=
  let targetTag := targetTag &&& r.tagmask
  if targetTag = 0 then (d, .ok ())
  else if (d.wm.clients.get? key).map (·.state.tags) = some targetTag then (d, .ok ())
  else (d.setTags key targetTag).focus ctx r none

/-! ## Another monitor -/

/-- `sendmon_impl`, before it asks for the focus. -/
def transfer (client : WMClient) (target : MonitorKey) (targetMonitor : WMMonitor) : Desk :=
  let d := d.unfocusClient key true
  let s := detachstack (detach d.wm key) key
  let s := match client.mon with
    | none => s
    | some source => { s with monitors := s.monitors.modify source (·.clearSelectionOf key) }
  let s := s.modifyClient key fun client =>
    { client with
      mon := some target
      state := { client.state with tags := targetMonitor.activeTags }
      geometry := r.place client.geometry }
  { d with wm := attachstack (attachBack s key) key }

end

def sendmon (client : Option ClientKey) (target : Option MonitorKey) : Desk :=
  match client, target with
  | some key, some target =>
    match d.wm.monitors.get? target, d.wm.clients.get? key with
    | some targetMonitor, some client =>
      if client.mon = some target then d
      else ((d.transfer r key client target targetMonitor).focus ctx r none).1
    | _, _ => d
  | _, _ => d

end Desk

/-! ## Calls -/

inductive DeskCall where
  | focus (client : Option ClientKey)
  | focusNone
  | view (arg : Option (BitVec 32))
  | viewOnMonitor (monitor : MonitorKey) (ui : BitVec 32)
  | toggleview (arg : Option (BitVec 32))
  | toggletag (arg : Option (BitVec 32))
  | moveClientToTag (client : ClientKey) (targetTag : BitVec 32)
  | sendmon (client : Option ClientKey) (target : Option MonitorKey)

def Desk.call (ctx : DeskContext) (d : Desk) (c : DeskReading × DeskCall) : Desk × Except String Unit :=
  match c.2 with
  | .focus client => d.focus ctx c.1 client
  | .focusNone => (d.focusNone, .ok ())
  | .view arg => d.view ctx c.1 arg
  | .viewOnMonitor monitor ui => d.viewOnMonitor ctx c.1 monitor ui
  | .toggleview arg => d.toggleview ctx c.1 arg
  | .toggletag arg => d.toggletag ctx c.1 arg
  | .moveClientToTag client targetTag => d.moveClientToTag ctx c.1 client targetTag
  | .sendmon client target => (d.sendmon ctx c.1 client target, .ok ())

end Jwm
