/-
The area windows may occupy (`jwm/layout/helpers.rs`, `jwm/bar_geometry.rs`): the work rectangle of a monitor less the
docks that show on it, the status bar and the panels of the shared shell (`xbar_core::desktop_shell`). Arithmetic on
`i32` that does not saturate is checked; `none` is an overflow.
-/
import Jwm.Wm.Struts

namespace Jwm

open List Option Rect

/-- An `i32` operation in range. -/
def I32.checked (n : Int) : Option Int := if I32.min ≤ n ∧ n ≤ I32.max then some n else none

/-! ## Configuration -/

/-- `backend::api::LayerSurfaceInfo`. -/
structure LayerSurfaceInfo where
  exclusiveZone : Int
  anchor : BarEdge → Bool

/-- `xbar_core::edge_shell::RevealMode`. -/
inductive RevealMode where
  | hover | always | disabled
deriving DecidableEq

/-- `xbar_core::desktop_shell::DesktopShellConfig`, as far as it reserves space. -/
structure DesktopShellConfig where
  enabled : Bool
  left : RevealMode
  right : RevealMode
  bottom : RevealMode

def DesktopShellConfig.mode (c : DesktopShellConfig) (edge : BarEdge) : RevealMode :=
  if !c.enabled then .disabled
  else
    match edge with
    | .left => c.left
    | .right => c.right
    | .bottom => c.bottom
    | .top => .disabled

/-- `panel_geometry` across a visible panel. -/
def panelDepth (output : Rect) (edge : BarEdge) : Int :=
  min (if edge.isVertical then 90 else 76) (I32.clampTo (output.across edge) 1 16384)

/-- A hovering panel overlays the windows; the primary bar has the top. -/
def DesktopShellConfig.reservationDepths (c : DesktopShellConfig) (output : Rect) : Insets := fun edge =>
  if edge = .top then 0 else if c.mode edge != .always then 0 else panelDepth output edge

/-- What the work area reads beside the state. -/
structure PanelContext where
  /-- `dock_layer_info` of a client. -/
  layerInfo : ClientKey → Option LayerSurfaceInfo
  /-- The client of the bar that belongs to a monitor's number. -/
  managedBar : Int → Option ClientKey
  position : BarEdge
  /-- Positions configured for single monitors. -/
  positions : List (Int × BarEdge)
  statusBarHeight : Int
  statusBarPadding : Int
  shell : DesktopShellConfig
  /-- The shell's panels are up or on their way. -/
  shellReservesSpace : Bool

def PanelContext.statusBarPositionForMonitor (ctx : PanelContext) (monitor : Int) : BarEdge :=
  if ctx.shell.enabled then .top
  else ((ctx.positions.find? (·.1 == monitor)).map (·.2)).getD ctx.position

/-! ## The status bar -/

structure BarGeometry where
  rect : Rect
  edge : BarEdge
  reservation : Int

namespace BarGeometry

/-- Origin and size of a bar inside an output of this size. -/
def place (edge : BarEdge) (width height pad thickness : Int) : Option Rect := do
  let margins ← I32.checked (2 * pad)
  match edge with
  | .top => return ⟨pad, pad, ← I32.checked (width - margins), thickness⟩
  | .bottom =>
    let below ← I32.checked (height - pad)
    return ⟨pad, ← I32.checked (below - thickness), ← I32.checked (width - margins), thickness⟩
  | .left => return ⟨pad, pad, thickness, ← I32.checked (height - margins)⟩
  | .right =>
    let beside ← I32.checked (width - pad)
    return ⟨← I32.checked (beside - thickness), pad, thickness, ← I32.checked (height - margins)⟩

def new (output : Rect) (edge : BarEdge) (thickness padding : Int) : Option BarGeometry := do
  let width := max output.w 1
  let height := max output.h 1
  let inner ← I32.checked (min width height - 1)
  let pad := min (max padding 0) (inner.tdiv 2)
  let crossExtent := if edge.isVertical then width else height
  let margins ← I32.checked (2 * pad)
  let room ← I32.checked (crossExtent - margins)
  let thickness := min (max thickness 1) room
  let placed ← place edge width height pad thickness
  let last ← I32.checked (crossExtent - 1)
  return {
    rect := ⟨I32.saturatingAdd output.x placed.x, I32.saturatingAdd output.y placed.y, placed.w, placed.h⟩
    edge := edge
    -- at least one pixel is left for windows
    reservation := min (I32.saturatingAdd thickness margins) last }

def forMonitor (ctx : PanelContext) (m : WMMonitor) : Option BarGeometry :=
  new m.rect (ctx.statusBarPositionForMonitor m.num) ctx.statusBarHeight ctx.statusBarPadding

def reservationDepths (ctx : PanelContext) (output : Rect) (edge : BarEdge) : Option Insets := do
  let bar ← new output edge ctx.statusBarHeight ctx.statusBarPadding
  let depths := Insets.single edge bar.reservation
  if ctx.shell.enabled then
    let shell := ctx.shell.reservationDepths ⟨output.x, output.y, max output.w 1, max output.h 1⟩
    return fun e => max (depths e) (min (shell e) I32.max)
  else return depths

def unreservedDepth (bar : BarGeometry) (physical work : Rect) : Int :=
  let covered :=
    match bar.edge with
    | .top => work.y - physical.y
    | .bottom => physical.y + physical.h - work.y - work.h
    | .left => work.x - physical.x
    | .right => physical.x + physical.w - work.x - work.w
  max (bar.reservation - max covered 0) 0

end BarGeometry

open BarGeometry

/-! ## Docks -/

def sharedShellLayer (ctx : PanelContext) (key : ClientKey) (client : WMClient) : Bool :=
  (ctx.layerInfo key).isSome && (client.name.startsWith "jwm-shell-" || client.class.startsWith "jwm-shell-")

def boundedDockReservation (depth pad extent : Int) : Int := I32.clampTo (depth + max pad 0) 0 (max extent 1)

def dockEdgeDistances (dock work : Rect) : Insets :=
  .of (dock.y - work.y).natAbs (work.y + work.h - (dock.y + dock.h)).natAbs (dock.x - work.x).natAbs
    (work.x + work.w - (dock.x + dock.w)).natAbs

def dockReachesOutputEdge (dock physical : Rect) (edge : BarEdge) (pad : Int) : Bool :=
  if dock.w ≤ 0 ∨ dock.h ≤ 0 ∨ physical.w ≤ 0 ∨ physical.h ≤ 0 then false
  else
    let pad := max pad 0
    if edge.isVertical then
      decide (dock.y < physical.y + physical.h) && decide (dock.y + dock.h > physical.y) &&
        decide (dock.x - pad < physical.x + physical.w) && decide (dock.x + dock.w + pad > physical.x)
    else
      decide (dock.x < physical.x + physical.w) && decide (dock.x + dock.w > physical.x) &&
        decide (dock.y - pad < physical.y + physical.h) && decide (dock.y + dock.h + pad > physical.y)

/-- `extent * num / den`. -/
def I32.portion (extent num den : Int) : Option Int := (I32.checked (extent * num)).map (·.tdiv den)

/-- A surface over nearly all of the monitor is a background, not a dock. -/
def coversMonitor (dock work : Rect) : Option Bool := do
  let wide ← I32.portion work.w 9 10
  if dock.w ≥ wide then return decide (dock.h ≥ (← I32.portion work.h 9 10)) else return false

/-- The edge a dock is on: long panels by their shape, others by the closest edge. -/
def dockEdge (dock work : Rect) : Option BarEdge := do
  let distance := dockEdgeDistances dock work
  let wide ← I32.portion work.w 2 3
  let tall ← I32.portion work.h 2 3
  if dock.w ≥ wide ∧ dock.h ≤ max (work.h.tdiv 2) 1 then
    return if distance .top ≤ distance .bottom then .top else .bottom
  else if dock.h ≥ tall ∧ dock.w ≤ max (work.w.tdiv 2) 1 then
    return if distance .left ≤ distance .right then .left else .right
  else
    let closest := min (min (min (distance .top) (distance .bottom)) (distance .left)) (distance .right)
    return if closest = distance .top then .top
      else if closest = distance .bottom then .bottom
      else if closest = distance .left then .left
      else .right

/-- How far a dock reaches into the work rectangle from an edge. -/
def dockDepth (dock work : Rect) : BarEdge → Int
  | .top => dock.y + dock.h - work.y
  | .bottom => work.y + work.h - dock.y
  | .left => dock.x + dock.w - work.x
  | .right => work.x + work.w - dock.x

def dockClaim (info : Option LayerSurfaceInfo) (pad : Int) (geometry work physical : Rect) : Option Insets := do
  let dock : Rect := ⟨geometry.x, geometry.y, max geometry.w 0, max geometry.h 0⟩
  if dock.w = 0 ∨ dock.h = 0 then return fun _ => 0
  if ← coversMonitor dock work then return fun _ => 0
  let edge ← dockEdge dock work
  if !dockReachesOutputEdge dock physical edge pad then return fun _ => 0
  let exclusiveZone := (info.map (·.exclusiveZone)).getD 0
  let anchorOk := info.all fun i => !(i.anchor .top || i.anchor .bottom || i.anchor .left || i.anchor .right) || i.anchor edge
  let zone := if exclusiveZone = -1 then dock.across edge else if exclusiveZone > 0 then exclusiveZone else 0
  if dockEdgeDistances dock work edge ≤ max pad 8 then
    -- the zone counts only where the surface is anchored
    let depth := if zone > 0 ∧ anchorOk then zone else dockDepth dock work edge
    return .single edge (boundedDockReservation depth pad (work.across edge))
  else return fun _ => 0

def clientClaim (ctx : PanelContext) (s : WMState) (mon : MonitorKey) (m : WMMonitor) (key : ClientKey) : Option Insets :=
  if some key = ctx.managedBar m.num then some fun _ => 0
  else
    match s.clients.get? key with
    | none => some fun _ => 0
    | some client =>
      if !client.state.isDock then some fun _ => 0
      else if sharedShellLayer ctx key client then some fun _ => 0
      else if !isClientVisibleOnMonitor s key mon then some fun _ => 0
      else dockClaim (ctx.layerInfo key) (max ctx.statusBarPadding 0) client.geometry.rect m.work m.rect

/-! ## The area -/

def barClaims (ctx : PanelContext) (m : WMMonitor) (bar : BarGeometry) : Option Insets := do
  let depths ← reservationDepths ctx m.rect bar.edge
  let withdrawn := ctx.shell.enabled && !ctx.shellReservesSpace
  return fun edge =>
    let reservation := if withdrawn ∧ edge ≠ .top then 0 else depths edge
    unreservedDepth { bar with edge := edge, reservation := reservation } m.rect m.work

/-- The deepest claim on each edge, before opposite edges are weighed. -/
def reservedTotal (ctx : PanelContext) (s : WMState) (mon : MonitorKey) (m : WMMonitor) (showBar : Bool) : Option Insets := do
  let bar ← forMonitor ctx m
  let docks ← ((s.monitorClients.get? mon).getD []).mapM (clientClaim ctx s mon m)
  if showBar then return .total (docks ++ [← barClaims ctx m bar]) else return .total docks

/-- `monitor_work_area_untabbed_with_bar`; the outer `none` is an overflow, the inner one a missing monitor. -/
def monitorWorkAreaUntabbedWithBar (ctx : PanelContext) (s : WMState) (mon : MonitorKey) (showBar : Bool) :
    Option (Option Rect) :=
  match s.monitors.get? mon with
  | none => some none
  | some m => do
    let i := clampEdges (← reservedTotal ctx s mon m showBar) m.work
    return some
      ⟨I32.saturatingAdd m.work.x (i .left), I32.saturatingAdd m.work.y (i .top),
        max (I32.saturatingSub (I32.saturatingSub m.work.w (i .left)) (i .right)) 0,
        max (I32.saturatingSub (I32.saturatingSub m.work.h (i .top)) (i .bottom)) 0⟩

/-! ## Nothing overflows -/

theorem I32.checked_eq {n : Int} (hlow : I32.min ≤ n) (hhigh : n ≤ I32.max) : I32.checked n = some n := if_pos ⟨hlow, hhigh⟩

section Bar

variable {output : Rect} {edge : BarEdge} {thickness padding : Int}

/-- A bar lies inside its output and leaves a pixel; its reservation covers it unless it is as thick as the output. -/
structure BarFits (output : Rect) (edge : BarEdge) (bar : BarGeometry) : Prop where
  edge_eq : bar.edge = edge
  nonneg : 0 ≤ bar.reservation
  lt : bar.reservation < output.across edge
  covers : bar.rect.across edge < output.across edge → bar.rect.Within (output.strip edge bar.reservation)

def BarGeometry.placed (width height pad thickness : Int) : BarEdge → Rect
  | .top => ⟨pad, pad, width - 2 * pad, thickness⟩
  | .bottom => ⟨pad, height - pad - thickness, width - 2 * pad, thickness⟩
  | .left => ⟨pad, pad, thickness, height - 2 * pad⟩
  | .right => ⟨width - pad - thickness, pad, thickness, height - 2 * pad⟩

theorem place_eq {width height pad : Int} (hw : width ≤ I32.max) (hh : height ≤ I32.max) (hpad : 0 ≤ pad)
    (hpw : 2 * pad < width) (hph : 2 * pad < height) (h1 : 1 ≤ thickness)
    (ht : thickness ≤ (if edge.isVertical then width else height) - 2 * pad) :
    BarGeometry.place edge width height pad thickness = some (BarGeometry.placed width height pad thickness edge) := by
  have hmin : I32.min ≤ 0 := by decide
  unfold BarGeometry.place
  rw [I32.checked_eq (by omega) (by omega), bind_eq_bind, bind_some]
  cases edge with
  | top =>
    rw [I32.checked_eq (by omega) (by omega)]
    rfl
  | bottom =>
    unfold BarEdge.isVertical at ht
    rw [if_neg Bool.false_ne_true] at ht
    rw [I32.checked_eq (by omega) (by omega), bind_some, I32.checked_eq (by omega) (by omega), bind_some,
      I32.checked_eq (by omega) (by omega)]
    rfl
  | left =>
    dsimp only
    rw [I32.checked_eq (by omega) (by omega)]
    rfl
  | right =>
    unfold BarEdge.isVertical at ht
    dsimp only at ht ⊢
    rw [if_pos rfl] at ht
    rw [I32.checked_eq (by omega) (by omega), bind_some, I32.checked_eq (by omega) (by omega), bind_some,
      I32.checked_eq (by omega) (by omega)]
    rfl

/-- A margin that leaves a pixel of the shorter side, and a thickness inside it: nothing overflows. -/
theorem BarGeometry.new_eq (hw : 1 ≤ output.w ∧ output.w ≤ I32.max) (hh : 1 ≤ output.h ∧ output.h ≤ I32.max) (edge : BarEdge)
    (thickness padding : Int) :
    ∃ pad thick, 0 ≤ pad ∧ 2 * pad < output.w ∧ 2 * pad < output.h ∧ 1 ≤ thick ∧ thick + 2 * pad ≤ output.across edge ∧
      BarGeometry.new output edge thickness padding = some {
        rect := ⟨I32.saturatingAdd output.x (placed output.w output.h pad thick edge).x,
          I32.saturatingAdd output.y (placed output.w output.h pad thick edge).y,
          (placed output.w output.h pad thick edge).w, (placed output.w output.h pad thick edge).h⟩
        edge := edge
        reservation := min (thick + 2 * pad) (output.across edge - 1) } := by
  obtain ⟨hw1, hw⟩ := hw
  obtain ⟨hh1, hh⟩ := hh
  have hmin : I32.min ≤ 0 := by decide
  unfold BarGeometry.new
  dsimp only
  rw [Int.max_eq_left hw1, Int.max_eq_left hh1, I32.checked_eq (by omega) (by omega), bind_eq_bind, bind_some,
    Int.tdiv_eq_ediv_of_nonneg (by omega)]
  have hpad : 0 ≤ min (max padding 0) ((min output.w output.h - 1) / 2) := by omega
  have hpadw : 2 * min (max padding 0) ((min output.w output.h - 1) / 2) < output.w := by omega
  have hpadh : 2 * min (max padding 0) ((min output.w output.h - 1) / 2) < output.h := by omega
  generalize min (max padding 0) ((min output.w output.h - 1) / 2) = pad at hpad hpadw hpadh ⊢
  have hcross : (if edge.isVertical then output.w else output.h) = output.across edge := by
    cases edge <;> rfl
  rw [hcross]
  have hacross : 2 * pad < output.across edge ∧ output.across edge ≤ I32.max := by
    cases edge
    · exact ⟨hpadh, hh⟩
    · exact ⟨hpadh, hh⟩
    · exact ⟨hpadw, hw⟩
    · exact ⟨hpadw, hw⟩
  obtain ⟨hroom, hcap⟩ := hacross
  rw [I32.checked_eq (by omega) (by omega), bind_some, I32.checked_eq (by omega) (by omega), bind_some]
  have ht1 : 1 ≤ min (max thickness 1) (output.across edge - 2 * pad) := by omega
  have ht : min (max thickness 1) (output.across edge - 2 * pad) ≤ output.across edge - 2 * pad := Int.min_le_right _ _
  generalize min (max thickness 1) (output.across edge - 2 * pad) = thick at ht1 ht ⊢
  rw [place_eq hw hh hpad hpadw hpadh ht1 (by rw [hcross]; exact ht), bind_eq_bind,
    bind_some, I32.checked_eq (by omega) (by omega), bind_some]
  have hreserve : I32.saturatingAdd thick (2 * pad) = thick + 2 * pad := I32.clamp_eq (by omega) (by omega)
  refine ⟨pad, thick, hpad, hpadw, hpadh, ht1, by omega, ?_⟩
  rw [hreserve]
  rfl

theorem BarGeometry.new_spec (h : Representable output) (edge : BarEdge) (thickness padding : Int) :
    ∃ bar, BarGeometry.new output edge thickness padding = some bar ∧ BarFits output edge bar := by
  obtain ⟨⟨hw1, hh1⟩, hx, hy, hx', hy', hw, hh⟩ := h
  have hmax : (65535 : Int) ≤ I32.max := by decide
  have hmin : I32.min ≤ 0 := by decide
  obtain ⟨pad, thick, hpad, hpadw, hpadh, ht1, ht, hnew⟩ :=
    new_eq ⟨hw1, hw.trans hmax⟩ ⟨hh1, hh.trans hmax⟩ edge thickness padding
  refine ⟨_, hnew, rfl, ?_, ?_, fun hthin => ?_⟩
  · dsimp only
    omega
  · dsimp only
    omega
  · have hthick : (BarGeometry.placed output.w output.h pad thick edge).across edge = thick := by
      cases edge <;> rfl
    replace hthin : thick < output.across edge := hthick ▸ hthin
    have hx0 : I32.saturatingAdd output.x (BarGeometry.placed output.w output.h pad thick edge).x =
        output.x + (BarGeometry.placed output.w output.h pad thick edge).x := by
      cases edge <;> exact I32.clamp_eq (by dsimp only [BarGeometry.placed, across] at *; omega)
        (by dsimp only [BarGeometry.placed, across] at *; omega)
    have hy0 : I32.saturatingAdd output.y (BarGeometry.placed output.w output.h pad thick edge).y =
        output.y + (BarGeometry.placed output.w output.h pad thick edge).y := by
      cases edge <;> exact I32.clamp_eq (by dsimp only [BarGeometry.placed, across] at *; omega)
        (by dsimp only [BarGeometry.placed, across] at *; omega)
    rw [hx0, hy0]
    cases edge <;> refine ⟨?_, ?_, ?_, ?_⟩ <;> dsimp only [BarGeometry.placed, across, strip] at * <;> omega

end Bar

variable {α β : Type} {f : α → Option β} {bar : BarGeometry}

section Claims

variable {ctx : PanelContext} {s : WMState} {mon : MonitorKey} {m : WMMonitor} {work physical : Rect}

theorem portion_isSome {extent num : Int} (h1 : 1 ≤ extent) (h : extent ≤ 65535) (hn : 0 ≤ num) (hnum : num ≤ 9) (den : Int) :
    ∃ part, I32.portion extent num den = some part := by
  unfold I32.portion
  have hlow : 0 ≤ extent * num := Int.mul_nonneg (by omega) hn
  have hhigh : extent * num ≤ 65535 * 9 := Int.mul_le_mul h hnum hn (by decide)
  rw [I32.checked_eq (hlow.trans' (by decide)) (hhigh.trans (by decide))]
  exact ⟨_, rfl⟩

theorem coversMonitor_isSome (hw : Representable work) (dock : Rect) : ∃ covers, coversMonitor dock work = some covers := by
  obtain ⟨wide, hwide⟩ := @portion_isSome _ 9 hw.positive.width hw.width_le (by decide) (by decide) 10
  obtain ⟨tall, htall⟩ := @portion_isSome _ 9 hw.positive.height hw.height_le (by decide) (by decide) 10
  unfold coversMonitor
  rw [hwide, htall]
  simp only [bind_eq_bind, bind_some]
  split
  · exact ⟨_, rfl⟩
  · exact ⟨_, rfl⟩

theorem dockEdge_isSome (hw : Representable work) (dock : Rect) : ∃ edge, dockEdge dock work = some edge := by
  obtain ⟨wide, hwide⟩ := @portion_isSome _ 2 hw.positive.width hw.width_le (by decide) (by decide) 3
  obtain ⟨tall, htall⟩ := @portion_isSome _ 2 hw.positive.height hw.height_le (by decide) (by decide) 3
  unfold dockEdge
  rw [hwide, htall]
  simp only [bind_eq_bind, bind_some]
  split
  · exact ⟨_, rfl⟩
  split
  · exact ⟨_, rfl⟩
  · exact ⟨_, rfl⟩

theorem dockClaim_isSome (hw : Representable work) (info : Option LayerSurfaceInfo) (pad : Int) (geometry physical : Rect) :
    ∃ claim, dockClaim info pad geometry work physical = some claim := by
  unfold dockClaim
  obtain ⟨covers, hcovers⟩ := coversMonitor_isSome hw ⟨geometry.x, geometry.y, max geometry.w 0, max geometry.h 0⟩
  obtain ⟨edge, hedge⟩ := dockEdge_isSome hw ⟨geometry.x, geometry.y, max geometry.w 0, max geometry.h 0⟩
  simp only [hcovers, hedge, bind_eq_bind, bind_some]
  split
  · exact ⟨_, rfl⟩
  split
  · exact ⟨_, rfl⟩
  split
  · exact ⟨_, rfl⟩
  split
  · exact ⟨_, rfl⟩
  · exact ⟨_, rfl⟩

theorem clientClaim_isSome (hw : Representable m.work) (key : ClientKey) : ∃ claim, clientClaim ctx s mon m key = some claim := by
  unfold clientClaim
  split
  · exact ⟨_, rfl⟩
  split
  · exact ⟨_, rfl⟩
  split
  · exact ⟨_, rfl⟩
  split
  · exact ⟨_, rfl⟩
  split
  · exact ⟨_, rfl⟩
  · exact dockClaim_isSome hw _ _ _ _

theorem mapM_isSome (h : ∀ a, ∃ b, f a = some b) : ∀ l : List α, ∃ bs, l.mapM f = some bs
  | [] => ⟨[], rfl⟩
  | a :: l => by
    obtain ⟨b, hb⟩ := h a
    obtain ⟨bs, hbs⟩ := mapM_isSome h l
    refine ⟨b :: bs, ?_⟩
    rw [mapM_cons, hb, hbs]
    rfl

/-- What does not depend on the order of the results does not depend on the order of the list. -/
theorem mapM_perm {γ : Type} {l l' : List α} (h : l.Perm l') :
    ∀ {g : List β → γ}, (∀ bs bs', bs.Perm bs' → g bs = g bs') → (l.mapM f).map g = (l'.mapM f).map g := by
  induction h with
  | nil => exact fun _ => rfl
  | cons a _ ih =>
    intro g hg
    rw [mapM_cons, mapM_cons]
    cases f a with
    | none => rfl
    | some b =>
      have hrest := ih (g := fun bs => g (b :: bs)) fun bs bs' hbs => hg _ _ (hbs.cons b)
      rw [map_eq_bind, map_eq_bind] at hrest
      simp only [bind_eq_bind, bind_some, map_bind]
      exact hrest
  | swap a b l =>
    intro g hg
    simp only [mapM_cons]
    cases f a with
    | none => cases f b <;> rfl
    | some x =>
      cases f b with
      | none => rfl
      | some y =>
        cases l.mapM f with
        | none => rfl
        | some bs => exact congrArg some (hg _ _ (.swap x y bs))
  | trans _ _ ih ih' => exact fun hg => (ih hg).trans (ih' hg)

theorem reservationDepths_spec (hbar : BarGeometry.new m.rect bar.edge ctx.statusBarHeight ctx.statusBarPadding = some bar) :
    ∃ depths, reservationDepths ctx m.rect bar.edge = some depths ∧ bar.reservation ≤ depths bar.edge := by
  have hsingle : Insets.single bar.edge bar.reservation bar.edge = bar.reservation := if_pos rfl
  unfold reservationDepths
  rw [hbar, bind_eq_bind, bind_some]
  split
  · refine ⟨_, rfl, ?_⟩
    rw [hsingle]
    exact Int.le_max_left _ _
  · exact ⟨_, rfl, Int.le_of_eq hsingle.symm⟩

/-- The bar claims what the struts have left of its reservation, whatever becomes of the shell's panels. -/
theorem barClaims_spec (hp : Representable m.rect) (hbar : forMonitor ctx m = some bar) :
    ∃ claim, barClaims ctx m bar = some claim ∧ bar.unreservedDepth m.rect m.work ≤ claim bar.edge := by
  unfold forMonitor at hbar
  have hedge : bar.edge = ctx.statusBarPositionForMonitor m.num := by
    obtain ⟨other, hother, hfits⟩ := new_spec hp (ctx.statusBarPositionForMonitor m.num) ctx.statusBarHeight
      ctx.statusBarPadding
    rw [← some.inj (hother.symm.trans hbar)]
    exact hfits.edge_eq
  rw [← hedge] at hbar
  obtain ⟨depths, hdepths, hle⟩ := reservationDepths_spec hbar
  -- with the shell the bar is at the top, which is never withdrawn
  have hkept : ¬ ((ctx.shell.enabled && !ctx.shellReservesSpace) = true ∧ bar.edge ≠ .top) := by
    rintro ⟨hwithdrawn, htop⟩
    rw [hedge] at htop
    unfold PanelContext.statusBarPositionForMonitor at htop
    rw [if_pos (Bool.and_eq_true_iff.1 hwithdrawn).1] at htop
    exact htop rfl
  unfold barClaims
  rw [hdepths, bind_eq_bind, bind_some]
  refine ⟨_, rfl, ?_⟩
  rw [if_neg hkept]
  unfold unreservedDepth
  dsimp only
  omega

theorem reservedTotal_spec (hp : Representable m.rect) (hw : Representable m.work) (showBar : Bool) :
    ∃ bar total, forMonitor ctx m = some bar ∧ reservedTotal ctx s mon m showBar = some total ∧
      (∀ e, 0 ≤ total e) ∧ (showBar = true → bar.unreservedDepth m.rect m.work ≤ total bar.edge) := by
  obtain ⟨bar, hbar, -⟩ := new_spec hp (ctx.statusBarPositionForMonitor m.num) ctx.statusBarHeight
    ctx.statusBarPadding
  obtain ⟨docks, hdocks⟩ := mapM_isSome (@clientClaim_isSome ctx s mon _ hw)
    ((s.monitorClients.get? mon).getD [])
  obtain ⟨claim, hclaim, hle⟩ := barClaims_spec hp hbar
  refine ⟨bar, .total (if showBar then docks ++ [claim] else docks), hbar, ?_, Insets.total_nonneg _, fun hshow => ?_⟩
  · unfold reservedTotal forMonitor
    rw [hbar, hdocks]
    simp only [bind_eq_bind, bind_some, hclaim]
    cases showBar <;> rfl
  · rw [hshow, if_pos rfl]
    exact hle.trans (Insets.le_total (mem_append_right _ (mem_singleton_self _)) _)

end Claims

/-! ## The area for windows -/

/-- The work rectangle of a monitor once the struts are applied: some of the monitor, and clear of every advertised
pixel unless opposite struts together reach over the monitor. -/
structure Reserved (struts : ExternalStruts) (s : WMState) (mon : MonitorKey) (m m' : WMMonitor) : Prop where
  rect : m'.rect = m.rect
  positive : m'.work.Positive
  within : m'.work.Within m.rect
  avoids : ∀ entry ∈ struts.entries, ∀ edge px py, (pixel px py).Within m.rect →
    Advertised entry.2.1 (entry.2.2.all (· == mon)) s.desktop px py edge →
    s.strutTotal struts mon m edge + s.strutTotal struts mon m edge.opposite < m.rect.across edge →
    Rect.Apart m'.work (pixel px py)

/-- The area left to the windows: computed without overflow, some of the work rectangle, and clear of a bar that is
shown, unless the bar is as thick as its output or opposite reservations together reach over the work rectangle. -/
structure Usable (ctx : PanelContext) (s : WMState) (mon : MonitorKey) (m : WMMonitor) (showBar : Bool) (area : Rect) :
    Prop where
  computed : monitorWorkAreaUntabbedWithBar ctx s mon showBar = some (some area)
  positive : area.Positive
  within : area.Within m.work
  avoids : ∃ bar total, forMonitor ctx m = some bar ∧ reservedTotal ctx s mon m showBar = some total ∧
    (showBar = true → bar.rect.across bar.edge < m.rect.across bar.edge →
      total bar.edge + total bar.edge.opposite < m.work.across bar.edge → Rect.Apart area bar.rect)

section Areas

variable {ctx : PanelContext} {struts : ExternalStruts} {s : WMState} {mon : MonitorKey} {m : WMMonitor}

theorem applyStrutReservations_reserved (hmon : mon ∈ s.monitorOrder) (hm : s.monitors.get? mon = some m)
    (hp : Representable m.rect) :
    ∃ m', (applyStrutReservations struts s).monitors.get? mon = some m' ∧ Representable m'.work ∧
      Reserved struts s mon m m' := by
  have hreserved := @getStrutReserved_eq struts _ _ _ hm hp.positive
  obtain ⟨hnonneg, hroom⟩ := clampEdges_spec hp.spacious (s.strutTotal struts mon m)
  have hwork := WMMonitor.reserve_work hp hnonneg hroom
  obtain ⟨hpositive, hwithin⟩ := inset_spec hnonneg hroom
  refine ⟨m.reserve (clampEdges (s.strutTotal struts mon m) m.rect), ?_, ?_, rfl, ?_, ?_, ?_⟩
  · rw [applyStrutReservations_get?, if_pos hmon, hm, map_some, hreserved]
  · rw [hwork]
    exact hp.inset hnonneg hroom
  · rw [hwork]
    exact hpositive
  · rw [hwork]
    exact hwithin
  · intro entry hentry edge px py hin hadvertised hleft
    rw [hwork]
    have hmem : m.rect ∈ s.monitors.entries.map fun e => e.2.rect :=
      List.mem_map.2 ⟨(mon, m), KeyMap.get?_eq_some.1 hm, rfl⟩
    have hclaim : strutReservationForMonitor entry.2.1 (entry.2.2.all (· == mon)) m.rect s.desktop edge ≤
        clampEdges (s.strutTotal struts mon m) m.rect edge := by
      have htotal : ∀ e, 0 ≤ s.strutTotal struts mon m e := Insets.total_nonneg _
      rw [clampEdges_eq hp.spacious htotal hleft]
      exact Insets.le_total (List.mem_map.2 ⟨entry, hentry, rfl⟩) edge
    exact (inset_apart_strip m.rect hclaim).within (Rect.Within.refl _)
      (advertised_within hmem hp.positive hin hadvertised)

/-- Beside struts that reach into the reservation of a bar, the rest of it is enough to clear the bar. -/
theorem inset_apart_reserved {work physical : Rect} (h : work.Within physical) {i : Insets}
    (hi : bar.unreservedDepth physical work ≤ i bar.edge) :
    Rect.Apart (work.inset i) (physical.strip bar.edge bar.reservation) := by
  obtain ⟨hl, ht, hr, hb⟩ := h
  unfold unreservedDepth at hi
  unfold Rect.Apart inset
  cases hedge : bar.edge <;> rw [hedge] at hi <;> dsimp only [strip] at hi ⊢ <;> omega

theorem usable (hm : s.monitors.get? mon = some m) (hp : Representable m.rect) (hw : Representable m.work)
    (hin : m.work.Within m.rect) (showBar : Bool) : ∃ area, Usable ctx s mon m showBar area := by
  obtain ⟨bar, total, hbar, htotal, hnonneg, hclaimed⟩ :=
    @reservedTotal_spec ctx s mon _ hp hw showBar
  obtain ⟨hclamp, hroom⟩ := clampEdges_spec hw.spacious total
  obtain ⟨hpositive, hwithin⟩ := inset_spec hclamp hroom
  obtain ⟨hx, hy, hwidth, hheight⟩ := saturating_inset hw hclamp hroom
  refine ⟨m.work.inset (clampEdges total m.work), ?_, hpositive, hwithin, bar, total, hbar, htotal, fun hshow hthin hleft => ?_⟩
  · unfold monitorWorkAreaUntabbedWithBar
    rw [hm]
    dsimp only
    rw [htotal, bind_eq_bind, bind_some, hx, hy, hwidth, hheight,
      Int.max_eq_left (hpositive.width.trans' (by decide)), Int.max_eq_left (hpositive.height.trans' (by decide))]
    rfl
  · have hfits : BarFits m.rect (ctx.statusBarPositionForMonitor m.num) bar := by
      obtain ⟨other, hother, hfits⟩ := new_spec hp (ctx.statusBarPositionForMonitor m.num) ctx.statusBarHeight
        ctx.statusBarPadding
      rwa [← some.inj (hother.symm.trans hbar)]
    have hcovers := hfits.covers
    rw [← hfits.edge_eq] at hcovers
    have hdepth : bar.unreservedDepth m.rect m.work ≤ clampEdges total m.work bar.edge := by
      rw [clampEdges_eq hw.spacious hnonneg hleft]
      exact hclaimed hshow
    exact (inset_apart_reserved hin hdepth).within (Rect.Within.refl _) (hcovers hthin)

/-- After the struts are applied every monitor keeps a work rectangle of its own and in it an area for windows, clear of the
advertised strips and of the status bar as far as these leave room; the order in which the struts were observed does not
matter. -/
theorem work_areas_usable (ctx : PanelContext) (struts : ExternalStruts) {s : WMState}
    (h : ∀ mon m, s.monitors.get? mon = some m → Representable m.rect) :
    (∀ struts' : ExternalStruts, struts.entries.Perm struts'.entries →
        applyStrutReservations struts' s = applyStrutReservations struts s) ∧
      ∀ mon ∈ s.monitorOrder, ∀ m, s.monitors.get? mon = some m →
        ∃ m', (applyStrutReservations struts s).monitors.get? mon = some m' ∧ Reserved struts s mon m m' ∧
          ∀ showBar, ∃ area, Usable ctx (applyStrutReservations struts s) mon m' showBar area := by
  refine ⟨fun struts' hperm => (applyStrutReservations_perm hperm).symm, fun mon hmon m hm => ?_⟩
  have hp := h mon m hm
  obtain ⟨m', hm', hw, hreserved⟩ := @applyStrutReservations_reserved struts _ _ _ hmon hm hp
  refine ⟨m', hm', hreserved, fun showBar => ?_⟩
  rw [← hreserved.rect] at hp
  exact usable hm' hp hw (by rw [hreserved.rect]; exact hreserved.within) showBar

end Areas

namespace AreaSample

def screen : MonitorKey := ⟨1, 1⟩
def dock : ClientKey := ⟨1, 1⟩

def panel : StrutPartial := ⟨0, 0, 30, 0, 0, 0, 0, 0, 0, 99, 0, 0⟩

def struts : ExternalStruts := ⟨[(7, (panel, none))], by decide⟩

/-- A dock at the bottom that reserves as deep as it is. -/
def dockClient : WMClient where
  geometry := { rect := ⟨0, 90, 100, 10⟩ }
  state := { isFloating := true, isSticky := true, isDock := true }
  mon := some screen

def state : WMState where
  clients := ⟨[(dock, dockClient)], by decide⟩
  monitors := ⟨[(screen, { WMMonitor.new with geometry := ⟨0, 0, 100, 100, 0, 0, 100, 100⟩ })], by decide⟩
  monitorClients := ⟨[(screen, [dock])], nodup_singleton screen⟩
  monitorStack := ⟨[(screen, [dock])], nodup_singleton screen⟩
  monitorOrder := [screen]
  selMon := some screen

def context (thickness : Int) : PanelContext where
  layerInfo _ := none
  managedBar _ := none
  position := .top
  positions := []
  statusBarHeight := thickness
  statusBarPadding := 0
  shell := ⟨false, .hover, .hover, .hover⟩
  shellReservesSpace := false

theorem representable : ∀ mon m, state.monitors.get? mon = some m → Representable m.rect := by
  intro mon m hm
  have hentry : (mon, m) ∈ state.monitors.entries := KeyMap.get?_eq_some.1 hm
  obtain ⟨-, rfl⟩ := Prod.mk.inj (mem_singleton.1 hentry)
  exact ⟨⟨by decide, by decide⟩, by decide, by decide, by decide, by decide, by decide, by decide⟩

end AreaSample

/-- A strut of 30 pixels, which the bar of 20 pixels shares, and a dock of 10. -/
theorem work_areas_usable_panel :
    monitorWorkAreaUntabbedWithBar (AreaSample.context 20) (applyStrutReservations AreaSample.struts AreaSample.state)
        AreaSample.screen true = some (some ⟨0, 30, 100, 60⟩) ∧
      ∃ m', (applyStrutReservations AreaSample.struts AreaSample.state).monitors.get? AreaSample.screen = some m' ∧
        ∀ showBar, ∃ area, Usable (AreaSample.context 20) (applyStrutReservations AreaSample.struts AreaSample.state)
          AreaSample.screen m' showBar area := by
  refine ⟨by decide +kernel, ?_⟩
  obtain ⟨-, hmonitors⟩ := work_areas_usable (AreaSample.context 20) AreaSample.struts AreaSample.representable
  obtain ⟨m', hm', -, husable⟩ := hmonitors AreaSample.screen (mem_singleton_self _) _ rfl
  exact ⟨m', hm', husable⟩

/-- A bar as thick as the output leaves room for one line of pixels by its reservation, and covers that line too. -/
theorem thick_bar_covers_area :
    let s := applyStrutReservations .empty { AreaSample.state with clients := .empty }
    let ctx := AreaSample.context 120
    ((s.monitors.get? AreaSample.screen).bind (BarGeometry.forMonitor ctx)).map (fun bar => (bar.rect, bar.edge)) =
        some (⟨0, 0, 100, 100⟩, .top) ∧
      ((s.monitors.get? AreaSample.screen).bind fun m => reservedTotal ctx s AreaSample.screen m true).map
        (fun total => (total .top, total .bottom)) = some (99, 0) ∧
      (s.monitors.get? AreaSample.screen).map (·.work) = some ⟨0, 0, 100, 100⟩ ∧
      monitorWorkAreaUntabbedWithBar ctx s AreaSample.screen true = some (some ⟨0, 99, 100, 1⟩) ∧
      ¬ Rect.Apart ⟨0, 99, 100, 1⟩ ⟨0, 0, 100, 100⟩ := by
  decide +kernel

end Jwm
