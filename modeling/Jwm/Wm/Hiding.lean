/-
Showing, hiding and resizing one window (`jwm/visibility.rs`, `jwm/positioning.rs`, `jwm/constraints.rs`) and the pass of
`arrange` over a monitor (`jwm/layout/arrange.rs`, `jwm/layout/implementations.rs`): the focus stack is shown or parked, the
status bar put where it belongs, the tiles laid out and the maximized windows refitted (`jwm/maximize.rs`). Every call of the
backend may fail; a failed method keeps what it had written. The rectangles that the layout calculators give the tiles are a
parameter here.
-/
import Jwm.Core.Constraints
import Jwm.Data.Fallible
import Jwm.Wm.Sendmon

namespace Jwm

/-! ## The backend and the rest of the desktop -/

/-- The window manager with the questions it has put to the backend so far. -/
structure ModeWorld where
  state : WMState
  asked : Nat
  /-- `NEXT_MINIMIZED_ORDER`. -/
  nextMinimizedOrder : Nat

abbrev Modes := EStateM String ModeWorld

/-- What a resize leaves alone: the client's monitor and flags, up to the cached hints. -/
def WMClient.standing (c : WMClient) : Option MonitorKey × ClientState := (c.mon, { c.state with isFixed := false })

def WMMonitor.outlook (m : WMMonitor) : MonitorGeometry × (Fin 2 → BitVec 32) × Fin 2 := (m.geometry, m.tagSet, m.selTags)

/-- What showing, hiding and placing windows leaves alone. -/
structure Arranged (s r : WMState) : Prop where
  clients : ∀ k, (r.clients.get? k).map WMClient.standing = (s.clients.get? k).map WMClient.standing
  monitors : ∀ m, (r.monitors.get? m).map WMMonitor.outlook = (s.monitors.get? m).map WMMonitor.outlook
  lists : r.monitorClients = s.monitorClients
  focusStacks : r.monitorStack = s.monitorStack

theorem Arranged.refl (s : WMState) : Arranged s s := ⟨fun _ => rfl, fun _ => rfl, rfl, rfl⟩

/-- `is_maximize_realized` -/
def WMClient.isMaximizeRealized (c : WMClient) : Bool :=
  c.state.maximizedAxes.any && c.state.isFloating && !c.state.isFullscreen && !c.state.isPip

/-- Where the status bar of a monitor goes, on the screen or parked, and whether its strut is published anew. -/
structure BarPlace (s : WMState) where
  client : ClientKey
  rect : Rect
  restrut : Bool
  dock : (s.clients.get? client).all (·.state.isDock) = true
  sized : 0 < rect.w ∧ 0 < rect.h

structure ModeEnv where
  /-- The backend's `n`-th answer: whether the call succeeded, or what the query found. -/
  answer : Nat → Bool
  /-- `fetch_normal_hints`, when it succeeds. -/
  normalHints : ClientKey → Option SizeHints
  /-- `behavior().resize_hints`. -/
  resizeHints : Bool
  /-- `capabilities().supports_client_list`: an X11 backend. -/
  supportsClientList : Bool
  /-- The window was adopted from a restart that has not been consumed yet. -/
  restartAdopted : ClientKey → Bool
  locked : MonitorKey → Bool
  monitorWorkArea : WMState → MonitorKey → Option Rect
  maximizeWorkArea : WMState → MonitorKey → Option Rect
  statusBar : (s : WMState) → MonitorKey → Option (BarPlace s)
  borderPx : Int
  /-- The symbol of a monitor's layout, and the sizes that drags asked for and the layout keeps. -/
  layoutState : WMState → MonitorKey → String × KeyMap (BitVec 32 × LayoutEnum) (ResizeContext ClientKey)
  /-- A size that a drag asked for stands, and the layout fits its rectangles to it and to the hints itself. -/
  dragged : WMState → MonitorKey → Bool
  /-- The rectangles that the calculator of the monitor's layout gives the tiles. -/
  layoutResults : (s : WMState) → (mon : MonitorKey) → List ({ key // key ∈ tiledKeys s mon } × Rect)

namespace ModeEnv

def ask (env : ModeEnv) : Modes Bool := fun w => .ok (env.answer w.asked) { w with asked := w.asked + 1 }

def call (env : ModeEnv) : Modes Unit := do
  if ← env.ask then pure () else throw "backend call failed"

end ModeEnv

def getState : Modes WMState := do
  return (← get).state

def modifyState (f : WMState → WMState) : Modes Unit := modify fun w => { w with state := f w.state }

def modifyClient (key : ClientKey) (f : WMClient → WMClient) : Modes Unit := modifyState (·.modifyClient key f)

def getClient (key : ClientKey) : Modes WMClient := do
  match (← getState).clients.get? key with
  | some client => pure client
  | none => throw "Client not found"

/-! ## Off-screen parking -/

def hiddenXLeftOfDesktop (desktopLeft totalWidth : Int) : Int :=
  I32.saturatingSub desktopLeft (I32.saturatingMul (max totalWidth 1) 2)

def isFullyLeftOfDesktop (x totalWidth desktopLeft : Int) : Bool := x + max totalWidth 1 ≤ desktopLeft

def desktopLeftEdge (s : WMState) : Int :=
  ((s.monitors.entries.map fun e => e.2.geometry.mX).min?).getD 0

namespace ClientGeometry

def totalWidth (g : ClientGeometry) : Int := I32.saturatingAdd g.rect.w (I32.saturatingMul g.borderW 2)

def visibleRect (g : ClientGeometry) : Rect := g.hiddenRestoreRect.getD g.rect

/-- Park the window so that it comes back to `target`. -/
def parkAt (g : ClientGeometry) (target : Rect) (hiddenX : Int) : ClientGeometry :=
  { g with hiddenRestoreRect := some target, hiddenX := some hiddenX, rect := { target with x := hiddenX } }

end ClientGeometry

/-- `stage_hidden_geometry`: repeated hides keep the first visible rectangle. -/
def stageHiddenGeometry (g : ClientGeometry) (restore : Rect) (hiddenX : Int) : ClientGeometry :=
  { g with
    hiddenRestoreRect := some (g.hiddenRestoreRect.getD restore)
    rect := { g.rect with x := hiddenX }
    hiddenX := some hiddenX }

/-- Where a parked geometry goes back to. -/
inductive HiddenRestore where
  | slot (restore : Rect) | oldX | legacyFallback
deriving DecidableEq

def planHiddenRestore (g : ClientGeometry) (desktopLeft : Int) : Option HiddenRestore :=
  if g.hiddenX.isSome || g.hiddenRestoreRect.isSome || isFullyLeftOfDesktop g.rect.x g.totalWidth desktopLeft then
    match g.hiddenRestoreRect with
    | some restore => some (.slot restore)
    | none =>
      if isFullyLeftOfDesktop g.oldRect.x g.totalWidth desktopLeft then some .legacyFallback else some .oldX
  else none

def restoreHiddenGeometry (g : ClientGeometry) (desktopLeft legacyFallbackX : Int) : ClientGeometry :=
  match planHiddenRestore g desktopLeft with
  | none => g
  | some plan =>
    { g with
      hiddenX := none
      hiddenRestoreRect := none
      rect := match plan with
        | .slot restore => restore
        | .oldX => { g.rect with x := g.oldRect.x }
        | .legacyFallback => { g.rect with x := legacyFallbackX } }

/-! ## Resizing -/

/-- `refresh_client_size_hints` with the answer of the backend: a missing property is cached too. -/
def refreshClientSizeHints (client : WMClient) (hints : Option SizeHints) : WMClient :=
  if client.sizeHints.hintsValid then client
  else
    match hints with
    | some hints =>
      { client with
        sizeHints := { hints with hintsValid := true }
        state := { client.state with
          isFixed := hints.maxW > 0 && hints.maxH > 0 && hints.maxW == hints.minW && hints.maxH == hints.minH } }
    | none => { client with sizeHints := { hintsValid := true }, state := { client.state with isFixed := false } }

namespace ModeEnv

variable (env : ModeEnv)

section

variable (key : ClientKey)

def ensureSizeHintsValid : Modes Unit := do
  let client ← getClient key
  if !client.sizeHints.hintsValid then
    env.call
    modifyClient key (refreshClientSizeHints · (env.normalHints key))

/-- `apply_boundary_constraints`, not interactive: against the client's monitor. -/
def applyBoundaryConstraints (r : Rect) : Modes Rect := do
  let client ← getClient key
  let totalWidth := r.w + 2 * client.geometry.borderW
  let totalHeight := r.h + 2 * client.geometry.borderW
  match client.mon.bind (← getState).monitors.get? with
  | none => pure r
  | some monitor =>
    let position := constrainToMonitor r.x r.y totalWidth totalHeight monitor.geometry
    pure { r with x := position.1, y := position.2 }

def applySizeHintsConstraints (r : Rect) : Modes Rect := do
  let client ← getClient key
  if !env.resizeHints && !client.state.isFloating then pure r
  else
    env.ensureSizeHintsValid key
    let client ← getClient key
    let size := calculateConstrainedSize r.w r.h client.sizeHints
    pure { r with w := size.1, h := size.2 }

def applysizehints (r : Rect) : Modes Rect := do
  let r := { r with w := max r.w 1, h := max r.h 1 }
  let r ← applyBoundaryConstraints key r
  let sized ← env.applySizeHintsConstraints key r
  -- hints that shrink the window can push it off the monitor
  if sized = r then pure sized else applyBoundaryConstraints key sized

/-- The live rectangle becomes `r`, the one it had goes to `old_*`. -/
def resizeclient (r : Rect) : Modes Unit := do
  modifyClient key fun c => { c with geometry := { c.geometry with oldRect := c.geometry.rect, rect := r } }
  env.call

def resizeClient (r : Rect) : Modes Unit := do
  match ← attempt (env.applysizehints key r) with
  | .ok r => let _ ← attempt (env.resizeclient key r)
  | .error _ => pure ()

/-! ## Show and hide -/

/-- A visible x for a window that an older process left off-screen with nothing to return to. -/
def legacyFallbackX (s : WMState) (client : WMClient) : Int :=
  match planHiddenRestore client.geometry (desktopLeftEdge s) with
  | some .legacyFallback => ((client.mon.bind (env.monitorWorkArea s)).map (·.x)).getD (desktopLeftEdge s)
  | _ => desktopLeftEdge s

def showClient : Modes Unit := do
  let s ← getState
  match s.clients.get? key with
  | none => pure ()
  | some client =>
    let left := desktopLeftEdge s
    let x := env.legacyFallbackX s client
    modifyClient key fun c => { c with geometry := restoreHiddenGeometry c.geometry left x }
    -- `move_window`: a failure is logged
    let _ ← env.ask
    let s ← getState
    match s.clients.get? key with
    | none => pure ()
    | some client =>
      if client.state.isFloating && !client.state.isFullscreen then env.resizeClient key client.geometry.rect

def hideClient : Modes Unit := do
  let s ← getState
  match s.clients.get? key with
  | none => pure ()
  | some client =>
    let hiddenX := hiddenXLeftOfDesktop (desktopLeftEdge s) client.geometry.totalWidth
    modifyClient key fun c => { c with geometry := stageHiddenGeometry c.geometry c.geometry.rect hiddenX }
    let _ ← env.ask

def showhideClient (mon : MonitorKey) : Modes Unit := do
  let s ← getState
  if (s.clients.get? key).any (·.state.isDock) then pure ()
  else if isClientVisibleOnMonitor s key mon then env.showClient key
  else env.hideClient key

def showhideMonitor (mon : MonitorKey) : Modes Unit := do
  let s ← getState
  ((s.monitorStack.get? mon).getD []).forM fun key => env.showhideClient key mon

/-! ## Placing a monitor's windows -/

/-- `position_secondary_bar_on_monitor`; its failures are ignored. -/
def placeBar {s : WMState} (bar : BarPlace s) : Modes Unit := do
  let _ ← attempt do
    (if (s.clients.get? bar.client).any (·.geometry.rect ≠ bar.rect) then do
      env.call
      modifyClient bar.client fun c => { c with geometry := { c.geometry with rect := bar.rect } }
    else pure ())
    if bar.restrut then env.call

def syncSecondaryBarPosition (mon : MonitorKey) : Modes Unit := do
  let s ← getState
  match env.statusBar s mon with
  | none => pure ()
  | some bar => env.placeBar bar

/-- The border of a tile. -/
def drawTile (lt : LayoutEnum) (c : WMClient) : WMClient :=
  { c with geometry := { c.geometry with
      borderW := if lt == .fullscreen || c.state.noDecorations then 0 else env.borderPx } }

/-- The rectangle of a tile after its hints; without hints to read it is where the layout put it. -/
def tileRect (preconstrained : Bool) (key : ClientKey) (r : Rect) : Modes Rect := do
  if preconstrained then pure r
  else
    match ← attempt (env.applySizeHintsConstraints key r) with
    | .ok sized => pure sized
    | .error _ => pure r

/-- `apply_layout_results` for one tile; a failure is ignored. -/
def applyLayoutResult (preconstrained : Bool) (key : ClientKey) (rect : Rect) : Modes Unit := do
  let r ← env.tileRect preconstrained key { rect with w := max rect.w 1, h := max rect.h 1 }
  let _ ← attempt (env.resizeclient key r)

def arrangemon (mon : MonitorKey) : Modes Unit := do
  let s ← getState
  match s.monitors.get? mon with
  | none => pure ()
  | some monitor =>
    let (ltSymbol, layoutResizes) := env.layoutState s mon
    modifyState fun s => { s with monitors := s.monitors.modify mon fun m => { m with ltSymbol, layoutResizes } }
    if monitor.lt.isFloat || monitor.lt == .any then pure ()
    else
      (tiledKeys s mon).forM fun key => modifyClient key (env.drawTile monitor.lt)
      let dragged := env.dragged s mon
      (if dragged && env.resizeHints then
        (tiledKeys s mon).forM fun key => do let _ ← attempt (env.ensureSizeHintsValid key)
      else pure ())
      let s ← getState
      (env.layoutResults s mon).forM fun e => env.applyLayoutResult dragged e.1.1 e.2

/-- `refit_keeping_restore_slot`: `old_*` may hold where fullscreen returns to. -/
def refitKeepingRestoreSlot (r : Rect) : Modes Unit := do
  let s ← getState
  let _ ← attempt (env.resizeclient key r)
  modifyClient key fun c =>
    { c with geometry := { c.geometry with oldRect := ((s.clients.get? key).map (·.geometry.oldRect)).getD c.geometry.oldRect } }

end

/-- What a refit remembers; a promoted window keeps its floating slot. -/
def refitted (c : WMClient) (base : Rect) (promoted : Bool) : WMClient :=
  { c with geometry := { c.geometry with
      maximizeRestoreRect := some base
      floatingRect := if promoted then c.geometry.floatingRect else base } }

/-- `refit_maximized_clients` for one window, whose free axes follow the live rectangle. -/
def refitMaximizedClient (area : Rect) (key : ClientKey) : Modes Unit := do
  let s ← getState
  match s.clients.get? key with
  | none => pure ()
  | some client =>
    let live := client.geometry.rect
    let axes := client.state.maximizedAxes
    let base := mirrorFreeAxes (client.geometry.maximizeRestoreRect.getD live) live axes
    match ← attempt (env.applysizehints key (maximizeTarget base area axes client.geometry.borderW)) with
    | .error _ => pure ()
    | .ok target =>
      modifyClient key (refitted · base client.state.maximizeRestoreTiled)
      if target ≠ live then env.refitKeepingRestoreSlot key target

/-- The windows of a monitor that maximize places. -/
def refits (s : WMState) (mon : MonitorKey) (key : ClientKey) : Bool :=
  (s.clients.get? key).any (fun c =>
    c.isMaximizeRealized && !c.state.isHidden && c.geometry.hiddenX.isNone && !c.state.isDock) &&
      isClientVisibleOnMonitor s key mon

def refitMaximizedClients (mon : MonitorKey) : Modes Unit := do
  let s ← getState
  match env.maximizeWorkArea s mon with
  | none => pure ()
  | some area => (((s.monitorClients.get? mon).getD []).filter (refits s mon)).forM (env.refitMaximizedClient area)

/-- `arrangemon` and `refit_maximized_clients`, then a restack whose failure is ignored. -/
def placeMonitor (mon : MonitorKey) : Modes Unit := do
  env.arrangemon mon
  env.refitMaximizedClients mon
  let _ ← env.ask

def arrange (target : Option MonitorKey) : Modes Unit := do
  let s ← getState
  let monitors := match target with
    | some mon => [mon]
    | none => s.monitorOrder
  monitors.forM env.showhideMonitor
  monitors.forM env.syncSecondaryBarPosition
  monitors.forM env.placeMonitor

end ModeEnv

end Jwm
