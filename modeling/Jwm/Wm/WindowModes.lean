/-
Fullscreen, picture-in-picture and minimizing (`jwm/window_state.rs`). Fullscreen and PiP both borrow
`old_state` and a return rectangle; entering either finishes the other first, and a request that fails
reinstalls the client it started from.
-/
import Jwm.Wm.Hiding

namespace Jwm

open I32

/-! ## What a minimized window leaves for a restart -/

structure MinimizedRestoreState where
  tags : BitVec 32
  monitorNum : Int
  visibleRect : Rect
  isFloating : Bool
  isDragFloating : Bool
  floatingRect : Option Rect
  isPip : Bool
  pipRestoreSticky : Bool
  oldState : Bool
  fullscreenRestoreRect : Option Rect
  minimizedOrder : Nat
deriving DecidableEq

/-- `valid_restore_rect` -/
def validRestoreRect (r : Rect) : Option Rect := if 0 < r.w ∧ 0 < r.h then some r else none

/-- `MinimizedRestoreRect::is_configurable`: a 16-bit origin and 16-bit sides. -/
def isConfigurable (r : Rect) : Bool :=
  -32768 ≤ r.x && r.x ≤ 32767 && -32768 ≤ r.y && r.y ≤ 32767 && 1 ≤ r.w && r.w ≤ 65535 && 1 ≤ r.h && r.h ≤ 65535

def persistableRestoreRect (r : Rect) : Option Rect := (validRestoreRect r).filter isConfigurable

def minimizedRestoreSnapshot (client : WMClient) (monitorNum : Option Int) (minimizedOrder : Nat) :
    Option MinimizedRestoreState :=
  if minimizedOrder = 0 then none
  else
    let st := client.state
    let g := client.geometry
    let maximizeRestore := g.maximizeRestoreRect.filter fun _ =>
      st.maximizedAxes.any && !st.isPip && !st.maximizeRestoreTiled
    let floatingRect := persistableRestoreRect (maximizeRestore.getD g.floatingRect)
    let restingTiled := st.maximizedAxes.any && st.maximizeRestoreTiled
    let suspended := st.isFullscreen || st.isPip
    match persistableRestoreRect g.visibleRect with
    | none => none
    | some visibleRect =>
      if st.isPip && floatingRect.isNone then none
      else if st.isFullscreen && (persistableRestoreRect g.oldRect).isNone then none
      else some
        { tags := st.tags
          monitorNum := monitorNum.getD (-1)
          visibleRect
          isFloating := if suspended then st.isFloating else st.isFloating && !restingTiled
          isDragFloating := st.isDragFloating
          floatingRect
          isPip := st.isPip
          pipRestoreSticky := st.pipRestoreSticky
          oldState := if suspended then st.oldState && !restingTiled else st.oldState
          fullscreenRestoreRect := if st.isFullscreen then persistableRestoreRect g.oldRect else none
          minimizedOrder }

/-- `i64::MAX`, the largest order the property can hold. -/
def maxMinimizedRestoreOrder : Nat := 2 ^ 63 - 1

/-! ## One client's transitions -/

namespace WMClient

def enterFullscreen (c : WMClient) (hidden : Bool) : WMClient :=
  { c with
    geometry := { c.geometry with
      oldRect := if hidden then c.geometry.visibleRect else c.geometry.oldRect
      oldBorderW := if c.state.noDecorations then 0 else c.geometry.borderW
      borderW := 0 }
    state := { c.state with isFullscreen := true, oldState := c.state.isFloating, isFloating := true } }

def leaveFullscreen (c : WMClient) (hidden : Bool) (desktopLeft : Int) : WMClient :=
  let g := { c.geometry with borderW := if c.state.noDecorations then 0 else c.geometry.oldBorderW }
  let target := g.oldRect
  let totalWidth := I32.saturatingAdd target.w (I32.saturatingMul g.borderW 2)
  { c with
    geometry := if hidden then g.parkAt target (hiddenXLeftOfDesktop desktopLeft totalWidth) else { g with rect := target }
    state := { c.state with isFullscreen := false, isFloating := c.state.oldState } }

/-- A promoted maximized client lends its restore rectangle to PiP, any other its floating one. -/
def enterPip (c : WMClient) : WMClient :=
  let visible := c.geometry.visibleRect
  let axes := c.state.maximizedAxes
  { c with
    geometry :=
      if c.state.maximizeRestoreTiled && axes.any then
        { c.geometry with maximizeRestoreRect := c.geometry.maximizeRestoreRect.map (mirrorFreeAxes · visible axes) }
      else { c.geometry with floatingRect := visible }
    state := { c.state with
      oldState := c.state.isFloating, pipRestoreSticky := c.state.isSticky
      isPip := true, isFloating := true, isSticky := true } }

def leavePip (c : WMClient) : WMClient :=
  { c with state := { c.state with
      isPip := false, isFloating := c.state.oldState, isSticky := c.state.pipRestoreSticky, pipRestoreSticky := false } }

/-- Where a client goes when PiP ends, given the work area maximize uses. -/
def pipReturn (c : WMClient) (maximizeArea : Option Rect) : Rect :=
  let axes := c.state.maximizedAxes
  if c.state.maximizeRestoreTiled && axes.any then
    let restore := c.geometry.maximizeRestoreRect.getD c.geometry.floatingRect
    match maximizeArea with
    | some area => maximizeTarget restore area axes c.geometry.borderW
    | none => restore
  else c.geometry.floatingRect

end WMClient

/-- A quarter of the work area in its bottom right corner, ten pixels from the edges. -/
def pipRect (area : Rect) : Rect :=
  let width := max (area.w.tdiv 4) 1
  let height := max (area.h.tdiv 4) 1
  { x := I32.saturatingSub (I32.saturatingSub (I32.saturatingAdd area.x area.w) width) 10
    y := I32.saturatingSub (I32.saturatingSub (I32.saturatingAdd area.y area.h) height) 10
    w := width, h := height }

/-- Run `undo` before the error of `x` is passed on. -/
def rollingBack {α : Type} (undo : Modes Unit) (x : Modes α) : Modes α := do
  match ← attempt x with
  | .ok a => pure a
  | .error e => do
    undo
    throw e

namespace ModeEnv

variable (env : ModeEnv)

/-! ## Fullscreen -/

def restartClientOffView (s : WMState) (key : ClientKey) : Bool := env.restartAdopted key && !isClientVisibleByKey s key

variable (key : ClientKey)

/-- The window takes the monitor's rectangle, off-screen while it is hidden. -/
def coverMonitor (monitor : Option WMMonitor) (hidden : Bool) (desktopLeft : Int) : Modes Unit :=
  match monitor with
  | none => pure ()
  | some monitor =>
    let target := monitor.rect
    if hidden then do
      let hiddenX := hiddenXLeftOfDesktop desktopLeft target.w
      modifyClient key fun c => { c with geometry := c.geometry.parkAt target hiddenX }
      env.call
    else env.resizeclient key target

/-- `setfullscreen_inner(true)` on a client in neither mode. -/
def enterFullscreen : Modes Unit := do
  env.call
  let client ← getClient key
  let s ← getState
  let hidden := client.state.isHidden || env.restartClientOffView s key
  modifyClient key (·.enterFullscreen hidden)
  modifyState (reorderClientInMonitorGroups · key)
  env.coverMonitor key (client.mon.bind s.monitors.get?) hidden (desktopLeftEdge s)
  -- restack the monitor
  if client.mon.isSome then env.call

/-- `setfullscreen_inner(false)` on a fullscreen client. -/
def leaveFullscreen : Modes Unit := do
  env.call
  let s ← getState
  -- a window on an unviewed tag stays parked, too
  let hidden := !isClientVisibleByKey s key
  modifyClient key (·.leaveFullscreen hidden (desktopLeftEdge s))
  modifyState (reorderClientInMonitorGroups · key)
  let client ← getClient key
  (if hidden then env.call else env.resizeclient key client.geometry.rect)
  if client.mon.isSome then env.arrange client.mon

/-- `setfullscreen_inner(false)`. -/
def setfullscreenOff : Modes Unit := do
  let client ← getClient key
  if client.state.isFullscreen then env.leaveFullscreen key

/-! ## Picture-in-picture -/

def pipTarget (s : WMState) (client : WMClient) (pip : Bool) : Except String Rect :=
  if pip then
    if client.geometry.visibleRect.w ≤ 0 ∨ client.geometry.visibleRect.h ≤ 0 then
      .error "PiP client has no valid source geometry"
    else
      match client.mon with
      | none => .error "PiP client has no monitor"
      | some mon =>
        match env.monitorWorkArea s mon with
        | none => .error "PiP monitor has no work area"
        | some area => .ok (pipRect area)
  else
    match validRestoreRect (client.pipReturn (client.mon.bind (env.maximizeWorkArea s))) with
    | none => .error "PiP client has no valid restore geometry"
    | some rect => .ok rect

/-- Configure the window of a PiP transition, parked while it is minimized. -/
def configurePip (previous : WMClient) (target : Rect) : Modes Unit := do
  if previous.state.isHidden then
    let s ← getState
    let totalWidth := I32.saturatingAdd target.w (I32.saturatingMul previous.geometry.borderW 2)
    let hiddenX := hiddenXLeftOfDesktop (desktopLeftEdge s) totalWidth
    env.call
    modifyClient key fun c => { c with geometry := c.geometry.parkAt target hiddenX }
  else env.resizeclient key target

/-- `set_client_pip_inner` once the client is known to change. -/
def togglePip (pip : Bool) : Modes Unit := do
  let previous ← getClient key
  let s ← getState
  match env.pipTarget s previous pip with
  | .error e => throw e
  | .ok target =>
    let rollbackClient := modifyClient key fun _ => previous
    modifyClient key fun c => if pip then c.enterPip else c.leavePip
    let target ← rollingBack rollbackClient (env.applysizehints key target)
    -- the Sticky flag of the window, then its geometry
    rollingBack rollbackClient env.call
    rollingBack rollbackClient (env.configurePip key previous target)
    modifyState (reorderClientInMonitorGroups · key)
    env.arrange previous.mon

/-- `set_client_pip_inner(false)`. -/
def setClientPipOff : Modes Unit := do
  let client ← getClient key
  if client.state.isPip then env.togglePip key false

/-! ## The two setters -/

/-- PiP ends before fullscreen starts; a client inherited with both flags leaves fullscreen first. -/
def finishPip : Modes Unit := do
  env.setfullscreenOff key
  env.setClientPipOff key

def setfullscreenInner (fullscreen : Bool) : Modes Unit := do
  let client ← getClient key
  let crossing := fullscreen && client.state.isPip
  (if crossing then env.finishPip key else pure ())
  let isFullscreen := !crossing && client.state.isFullscreen
  if fullscreen && !isFullscreen then env.enterFullscreen key
  else if !fullscreen && isFullscreen then env.leaveFullscreen key

def setClientPipInner (pip : Bool) : Modes Bool := do
  let client ← getClient key
  (if pip && client.state.isFullscreen then env.setfullscreenOff key else pure ())
  let client ← getClient key
  if pip = client.state.isPip then pure false
  else
    env.togglePip key pip
    pure true

/-- `install_internal_snapshot`: the client and its monitor's list as they were. -/
def installSnapshot (previous : WMClient) (order : Option (List ClientKey)) : Modes Unit := do
  modifyClient key fun _ => previous
  match previous.mon, order with
  | some mon, some order => modifyState (·.setList mon order)
  | _, _ => pure ()

/-- `restore_failed_mode_transition`; the properties it republishes only log their failures. -/
def restoreFailedModeTransition (previous : WMClient) (order : Option (List ClientKey)) :
    Modes Unit := do
  installSnapshot key previous order
  env.arrange previous.mon
  installSnapshot key previous order

def setfullscreen (fullscreen : Bool) : Modes Unit := do
  let previous ← getClient key
  let s ← getState
  let order := previous.mon.bind s.monitorClients.get?
  rollingBack (env.restoreFailedModeTransition key previous order) (env.setfullscreenInner key fullscreen)

def setClientPip (pip : Bool) : Modes Bool := do
  let previous ← getClient key
  let s ← getState
  let order := previous.mon.bind s.monitorClients.get?
  let undo := if pip && previous.state.isFullscreen then env.restoreFailedModeTransition key previous order else pure ()
  rollingBack undo (env.setClientPipInner key pip)

/-! ## Minimizing -/

/-- `next_minimized_order`; past the largest order it fails for good. -/
def allocateMinimizedOrder : Modes Nat := do
  let w ← get
  let allocated := max w.nextMinimizedOrder 1
  if allocated ≤ maxMinimizedRestoreOrder then
    set { w with nextMinimizedOrder := allocated + 1 }
    pure allocated
  else throw "minimized Dock order space exhausted"

/-- `focus`: the client, if it is visible and not on a locked monitor, else the topmost visible one. -/
def focus (target : Option ClientKey) : Modes Unit := do
  let s ← getState
  let wanted := target.filter fun key =>
    !(s.monOf key).any env.locked && isApplicationFocusEligible s key && isClientVisibleByKey s key
  let client := wanted <|> findVisibleClient env.locked s
  let current := (s.selMon.bind s.monitors.get?).bind (·.sel)
  (if current.isSome && current != client then env.call else pure ())
  modifyState fun s => (client.map (setClientFocusByKey s)).getD s
  env.call
  modifyState (updateMonitorSelection · client)

/-- `reconcile_existing_minimized_snapshot`: a minimized client without an order gets one. -/
def reconcileExistingMinimizedSnapshot : Modes Unit := do
  let client ← getClient key
  if client.state.isHidden && client.state.minimizedOrder = 0 then
    let order ← allocateMinimizedOrder
    modifyClient key fun c => { c with state := { c.state with minimizedOrder := order } }

/-- `retry_x11_minimized_client_park`; a Hide animation is left to move the window itself. -/
def retryX11MinimizedClientPark : Modes Unit := do
  if env.supportsClientList then
    let still ← env.ask
    if still then
      let s ← getState
      let client ← getClient key
      let hiddenX := hiddenXLeftOfDesktop (desktopLeftEdge s) client.geometry.totalWidth
      modifyClient key fun c =>
        { c with geometry := { c.geometry with rect := { c.geometry.rect with x := hiddenX }, hiddenX := some hiddenX } }
      env.call
      -- the geometry read back lies left of the desktop
      env.call

def verifyX11MinimizedClientParked : Modes Unit := do
  if env.supportsClientList then
    let still ← env.ask
    if still then
      env.call
      let viewable ← env.ask
      if viewable then env.call

def isMinimizedDockEligible (client : WMClient) : Bool :=
  !client.state.skipTaskbar && !client.state.isDock && !client.state.isSwallowed

def requestIconifyForHiddenDockClient : Modes Unit := do
  let client ← getClient key
  if client.state.isHidden && isMinimizedDockEligible client then
    env.verifyX11MinimizedClientParked
    env.call

/-- What a restore puts back when it fails late. -/
structure RestorePoint where
  minimizedOrder : Nat
  selectedClient : Option ClientKey
  selMon : Option MonitorKey
  targetSelection : Option ClientKey
  monitorStack : Option (List ClientKey)

/-- Selection and focus stack as the restore point has them. -/
def reinstallFocus (s : WMState) (mon : Option MonitorKey) (previous : RestorePoint) : WMState :=
  let s := match mon, previous.monitorStack with
    | some mon, some focusStack => { s with monitorStack := s.monitorStack.modify mon fun _ => focusStack }
    | _, _ => s
  let s := match mon with
    | some mon =>
      { s with monitors := s.monitors.modify mon (·.setSelectedClientForCurrentTag previous.targetSelection) }
    | none => s
  { s with selMon := previous.selMon }

/-- The focus half of `rollback_failed_minimized_restore`. -/
def repairFocus (mon : Option MonitorKey) (previous : RestorePoint) : Modes Unit := do
  modifyState (reinstallFocus · mon previous)
  let s ← getState
  let _ ← attempt (env.focus (previous.selectedClient.filter (isClientVisibleByKey s)))

def rollbackFailedMinimizedRestore (previous : RestorePoint) (repair : Bool) : Modes Unit := do
  let s ← getState
  let client ← getClient key
  let target := client.geometry.visibleRect
  let totalWidth := I32.saturatingAdd target.w (I32.saturatingMul client.geometry.borderW 2)
  let hiddenX := hiddenXLeftOfDesktop (desktopLeftEdge s) totalWidth
  modifyClient key fun c =>
    { c with
      geometry := c.geometry.parkAt target hiddenX
      state := { c.state with isHidden := true, minimizedOrder := previous.minimizedOrder } }
  env.arrange client.mon
  (if repair then env.repairFocus client.mon previous else pure ())
  let _ ← attempt (env.requestIconifyForHiddenDockClient key)

/-- What a late failure of `set_client_minimized` puts back, read before it starts. -/
def restorePoint (s : WMState) (client : WMClient) : RestorePoint where
  minimizedOrder := client.state.minimizedOrder
  selectedClient := (s.selMon.bind s.monitors.get?).bind (·.sel)
  selMon := s.selMon
  targetSelection := (client.mon.bind s.monitors.get?).bind fun m => getSelectedClientForCurrentTag m <|> m.sel
  monitorStack := client.mon.bind s.monitorStack.get?

/-- The public state of the window: the EWMH and ICCCM properties and, to restore, the map request. -/
def publishMinimized (client : WMClient) (monitorNum : Option Int) (minimized : Bool) (order : Option Nat) :
    Modes Unit := do
  (match order with
    | none => pure ()
    | some order =>
      if (minimizedRestoreSnapshot client monitorNum order).isNone then
        throw "client has no valid minimized restore geometry"
      else env.call)
  env.call
  env.call
  if !minimized then
    env.call
    if env.supportsClientList then env.call

/-- `set_client_minimized` for a client that is in the requested state already. -/
def repeatMinimized (minimized selected : Bool) : Modes Unit := do
  (if minimized && selected then env.focus none else pure ())
  if minimized then
    env.retryX11MinimizedClientPark key
    env.requestIconifyForHiddenDockClient key

/-- `set_client_minimized`, after the minimized flag was set. -/
def settleMinimized (mon : Option MonitorKey) (selected : Bool) : Modes Unit := do
  env.arrange mon
  rollingBack (do if selected then let _ ← attempt (env.focus none)) env.verifyX11MinimizedClientParked
  (if selected then env.focus none else pure ())
  env.requestIconifyForHiddenDockClient key

/-- `set_client_minimized`, after the minimized flag was cleared. -/
def settleRestored (mon : Option MonitorKey) (previous : RestorePoint) : Modes Unit := do
  env.arrange mon
  -- on X11 the window is viewable and no longer left of the desktop
  rollingBack (env.rollbackFailedMinimizedRestore key previous false)
    (if env.supportsClientList then do env.call; env.call else pure ())
  rollingBack (env.rollbackFailedMinimizedRestore key previous true) (env.focus (some key))
  rollingBack (env.rollbackFailedMinimizedRestore key previous true) env.call

def setClientMinimized (minimized : Bool) : Modes Bool := do
  let client ← getClient key
  (if !minimized && client.state.isHidden then env.retryX11MinimizedClientPark key else pure ())
  reconcileExistingMinimizedSnapshot key
  let client ← getClient key
  let s ← getState
  let changed := client.state.isHidden != minimized
  let selected := (s.selMon.bind s.monitors.get?).any (·.sel = some key)
  let monitorNum := (client.mon.bind s.monitors.get?).map (·.num)
  let order ← (if minimized && changed then some <$> allocateMinimizedOrder else pure none)
  env.publishMinimized client monitorNum minimized order
  if !changed then
    env.repeatMinimized key minimized selected
    pure false
  else
    modifyClient key fun c => { c with state := { c.state with isHidden := minimized, minimizedOrder := order.getD 0 } }
    (if minimized then env.settleMinimized key client.mon selected
      else env.settleRestored key client.mon (restorePoint s client))
    pure true

end ModeEnv

end Jwm
