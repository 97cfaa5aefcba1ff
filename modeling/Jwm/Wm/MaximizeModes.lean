/-
Maximize transactions (`jwm/maximize.rs`): one axis change and the unmaximize of a drag, each with the
rollback the window modes have.
-/
import Jwm.Wm.WindowModes

namespace Jwm

namespace WMClient

/-- The rectangle of a resting slot and the border it is measured with. -/
def restingRect (c : WMClient) : RestingSlot → Rect × Int
  | .live => (c.geometry.rect, c.geometry.borderW)
  | .hiddenRestore => (c.geometry.visibleRect, c.geometry.borderW)
  | .fullscreenReturn => (c.geometry.oldRect, c.geometry.oldBorderW)
  -- a promoted client does not lend its floating slot to PiP
  | .pipReturn =>
    (if c.state.maximizeRestoreTiled then c.geometry.maximizeRestoreRect.getD c.geometry.floatingRect
      else c.geometry.floatingRect, c.geometry.borderW)

/-- `unmaximize_in_place_inner`: a promoted client becomes drag-floated where it is. -/
def unmaximizedInPlace (c : WMClient) : WMClient :=
  let st := c.state.setMaximizedAxes .none
  { c with
    state := if c.state.maximizeRestoreTiled then { st with maximizeRestoreTiled := false, isDragFloating := true } else st
    geometry := { c.geometry with maximizeRestoreRect := none, floatingRect := c.geometry.rect } }

end WMClient

namespace ModeEnv

variable (env : ModeEnv)

def maximizeFacts (s : WMState) (client : WMClient) : MaximizeFacts where
  restingFloating := if client.state.isFullscreen || client.state.isPip then client.state.oldState else client.state.isFloating
  floatLayout := (client.mon.bind s.monitors.get?).any (·.lt.isFloat)
  suspended := client.state.isFullscreen || client.state.isPip
  isFixed := client.state.isFixed
  isDock := client.state.isDock
  hasWorkArea := (client.mon.bind (env.maximizeWorkArea s)).isSome

/-- Step (h) of `set_client_maximized_inner`: the geometry of the resting slot. -/
def configureResting (key : ClientKey) (client : WMClient) (slot : RestingSlot) (resting : Rect)
    (retile floatLayout : Bool) : Modes Unit := do
  match slot with
  | .live =>
    if retile then
      -- under a tiling layout the arrange places the tile
      if floatLayout then env.resizeclient key resting
    else
      let r ← env.applysizehints key resting
      if r ≠ client.geometry.rect then env.resizeclient key r
  | .hiddenRestore =>
    let r ← (if retile then pure resting else env.applysizehints key resting)
    let s ← getState
    let totalWidth := I32.saturatingAdd r.w (I32.saturatingMul client.geometry.borderW 2)
    modifyClient key fun c => { c with geometry := c.geometry.parkAt r (hiddenXLeftOfDesktop (desktopLeftEdge s) totalWidth) }
    env.call
  | .fullscreenReturn => modifyClient key fun c => { c with geometry := { c.geometry with oldRect := resting } }
  | .pipReturn =>
    if !client.state.maximizeRestoreTiled then
      modifyClient key fun c => { c with geometry := { c.geometry with floatingRect := resting } }

def setClientMaximizedInner (key : ClientKey) (next : MaximizeAxes) (origin : MaximizeOrigin)
    (restoreHint : Option Rect) : Modes Bool := do
  let client ← getClient key
  let s ← getState
  let facts := env.maximizeFacts s client
  let current := client.state.maximizedAxes
  let admission := admitMaximize current next facts origin
  if admission = .reject ∨ next = current then
    -- the reply a refused client is owed
    env.call
    pure false
  else
    let slot := restingSlot client.state.isFullscreen client.state.isPip
      (client.state.isHidden || client.geometry.hiddenX.isSome)
    let (resting, borderW) := client.restingRect slot
    let plan := planMaximize
      { current, restore := client.geometry.maximizeRestoreRect, restoreHint, resting
        area := (client.mon.bind (env.maximizeWorkArea s)).getD resting, borderW } next
    env.call
    modifyState fun s => (commitMaximize s key admission plan slot).getD s
    let committed ← getClient key
    let retile := !plan.axes.any && client.state.maximizeRestoreTiled
    env.configureResting key client slot plan.restingRect retile facts.floatLayout
    let attached := client.mon.any fun mon => (s.monitorClients.get? mon).any (·.contains key)
    (if (committed.state.isFloating != client.state.isFloating) && attached then env.arrange client.mon else pure ())
    pure true

/-- `with_maximize_rollback` -/
def withMaximizeRollback {α : Type} (key : ClientKey) (step : Modes α) : Modes α := do
  let previous ← getClient key
  let s ← getState
  let order := previous.mon.bind s.monitorClients.get?
  rollingBack (env.restoreFailedModeTransition key previous order) step

/-- `set_client_maximized_with_hint` -/
def setClientMaximizedWithHint (key : ClientKey) (axes : MaximizeAxes) (origin : MaximizeOrigin)
    (restoreHint : Option Rect) : Modes Bool :=
  env.withMaximizeRollback key (env.setClientMaximizedInner key axes origin restoreHint)

def setClientMaximized (key : ClientKey) (axes : MaximizeAxes) (origin : MaximizeOrigin) : Modes Bool :=
  env.setClientMaximizedWithHint key axes origin none

def unmaximizeInPlaceInner (key : ClientKey) : Modes Bool := do
  env.call
  modifyClient key (·.unmaximizedInPlace)
  env.call
  pure true

def unmaximizeInPlace (key : ClientKey) : Modes Bool := do
  let s ← getState
  if (s.clients.get? key).any (·.isMaximizeRealized) then env.withMaximizeRollback key (env.unmaximizeInPlaceInner key)
  else pure false

end ModeEnv

end Jwm
