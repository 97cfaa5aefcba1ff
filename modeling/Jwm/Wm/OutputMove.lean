/-
A client's rectangles when it moves to another output (`jwm/monitor.rs`). The window on the screen, the window parked because its tag
is not shown and the minimized window each have a path of their own; for a client that the layout does not place the three agree.
-/
import Jwm.Core.SizeHints
import Jwm.Core.Workspace
import Jwm.Wm.MaximizeModes

namespace Jwm

open Option

/-! ## One rectangle -/

def validRect (rect : Rect) : Option Rect := if 0 < rect.w ∧ 0 < rect.h then some rect else none

/-- One axis of `translate_and_clamp_restore_rect`: the position and the size. -/
def translateAxis (position size : Int) (source : Option Int) (target available border2 : Int) : Int × Int :=
  let size := min (max size 1) (max (I32.saturatingSub available border2) 1)
  let position := match source with
    | some source => I32.saturatingAdd target (I32.saturatingSub position source)
    | none => position
  let last := max (I32.saturatingSub (I32.saturatingAdd target available) (I32.saturatingAdd size border2)) target
  (max target (min position last), size)

/-- The offset within the source work area is kept; the window with its borders is made to fit the target. -/
def translateAndClampRestoreRect (rect : Rect) (sourceWork : Option Rect) (targetWork : Rect) (borderWidth : Int) : Rect :=
  let border2 := I32.saturatingMul (max borderWidth 0) 2
  let horizontal := translateAxis rect.x rect.w (sourceWork.map (·.x)) targetWork.x (max targetWork.w 1) border2
  let vertical := translateAxis rect.y rect.h (sourceWork.map (·.y)) targetWork.y (max targetWork.h 1) border2
  ⟨horizontal.1, vertical.1, horizontal.2, vertical.2⟩

def rectCenterInside (rect area : Rect) : Bool :=
  let cx := rect.x + max rect.w 0 / 2
  let cy := rect.y + max rect.h 0 / 2
  area.x ≤ cx && area.y ≤ cy && cx < area.x + area.w && cy < area.y + area.h

def legacyHiddenRestoreRect (client : WMClient) (fallback : Rect) : Rect :=
  ((if client.state.isFloating || client.state.isPip then validRect client.geometry.floatingRect else none).or
    (validRect client.geometry.oldRect)).getD ⟨fallback.x, fallback.y, max client.geometry.rect.w 1, max client.geometry.rect.h 1⟩

/-! ## The window that is not minimized -/

inductive VisibleMigration where
  | unchanged
  | parked
  | live
deriving DecidableEq

section

variable (sourceWork : Option Rect) (targetMonitor targetWork : Rect)

def translateFloatingRestore (client : WMClient) : WMClient :=
  match validRect client.geometry.floatingRect with
  | none => client
  | some floating =>
    { client with geometry := { client.geometry with
        floatingRect := translateAndClampRestoreRect floating sourceWork targetWork client.geometry.borderW } }

/-- The pre-maximize rectangle follows the work area wherever the window itself stays. -/
def translateMaximizeRestore (client : WMClient) : WMClient :=
  if client.state.maximizedAxes.any then
    { client with geometry := { client.geometry with
        maximizeRestoreRect := client.geometry.maximizeRestoreRect.map fun rect =>
          translateAndClampRestoreRect rect sourceWork targetWork client.geometry.borderW } }
  else client

/-- A fullscreen window is on its output when it is the whole of it. -/
def alreadyPlaced (client : WMClient) : Bool :=
  if client.state.isFullscreen then client.geometry.rect == targetMonitor else rectCenterInside client.geometry.rect targetMonitor

/-- Where the window goes, now or when it is shown again. -/
def placeMigrated (client : WMClient) (moved : Rect) : WMClient × VisibleMigration :=
  if client.geometry.hiddenX.isSome then
    ({ client with geometry := { client.geometry with hiddenRestoreRect := some moved } }, .parked)
  else ({ client with geometry := { client.geometry with rect := moved } }, .live)

/-- `migrate_visible_geometry_with_policy`. -/
def migrateVisibleGeometryWithPolicy (workspaceSwap : Bool) (client : WMClient) : WMClient × VisibleMigration :=
  if client.state.isHidden || client.state.isDock then (client, .unchanged)
  else
    let translate := fun rect => translateAndClampRestoreRect rect sourceWork targetWork client.geometry.borderW
    let placed := alreadyPlaced targetMonitor client
    let client := translateMaximizeRestore sourceWork targetWork client
    let client := if client.state.isPip then translateFloatingRestore sourceWork targetWork client else client
    if !workspaceSwap && !client.geometry.hiddenX.isSome && placed then (client, .unchanged)
    else
      let client := if client.state.isPip then client else translateFloatingRestore sourceWork targetWork client
      let current := if client.geometry.hiddenX.isSome then client.geometry.hiddenRestoreRect.bind validRect
        else validRect client.geometry.rect
      if client.state.isFullscreen then
        let client := match validRect client.geometry.oldRect with
          | none => client
          | some old => { client with geometry := { client.geometry with oldRect := translate old } }
        placeMigrated client targetMonitor
      else if client.isMaximizeRealized then
        match client.geometry.maximizeRestoreRect.or (current.map translate) with
        | none => (client, .unchanged)
        | some restore =>
          let client := { client with geometry := { client.geometry with maximizeRestoreRect := some restore } }
          -- a promoted client keeps the floating slot it had before
          let client := if client.state.maximizeRestoreTiled then client
            else { client with geometry := { client.geometry with floatingRect := restore } }
          placeMigrated client (maximizeTarget restore targetWork client.state.maximizedAxes client.geometry.borderW)
      else if client.state.isFloating || client.state.isPip || workspaceSwap then
        match current with
        | none => (client, .unchanged)
        | some current =>
          let moved := translate current
          -- the floating slot of a PiP window is the one it returns to
          let client := if !client.state.isPip && client.state.isFloating then
            { client with geometry := { client.geometry with floatingRect := moved } } else client
          placeMigrated client moved
      else (client, .unchanged)

def migrateVisibleGeometry (client : WMClient) : WMClient × VisibleMigration :=
  migrateVisibleGeometryWithPolicy sourceWork targetMonitor targetWork false client

/-! ## The minimized window -/

/-- The floating slot of a minimized client that is not fullscreen. -/
def hiddenFloatingSlot (client : WMClient) (realizedRestore : Option Rect) (visible : Rect) : Option Rect :=
  let ownSlot := (validRect client.geometry.floatingRect).map fun rect =>
    translateAndClampRestoreRect rect sourceWork targetWork client.geometry.borderW
  match realizedRestore with
  | some restore => if client.state.maximizeRestoreTiled then ownSlot else some restore
  | none => if client.state.isPip then ownSlot else some visible

def migrateHiddenRestoreGeometry (desktopLeft : Int) (client : WMClient) : WMClient × Bool :=
  if !client.state.isHidden then (client, false)
  else
    let borderWidth := client.geometry.borderW
    let translate := fun rect => translateAndClampRestoreRect rect sourceWork targetWork borderWidth
    let previousVisible := (client.geometry.hiddenRestoreRect.bind validRect).getD
      (legacyHiddenRestoreRect client (sourceWork.getD targetWork))
    let client := translateMaximizeRestore sourceWork targetWork client
    let realizedRestore := client.geometry.maximizeRestoreRect.filter fun _ => client.isMaximizeRealized
    let visible :=
      if client.state.isFullscreen then targetMonitor
      else
        match realizedRestore with
        | some restore => maximizeTarget restore targetWork client.state.maximizedAxes borderWidth
        | none => translate previousVisible
    let client :=
      if client.state.isFullscreen then
        let old := translate ((validRect client.geometry.oldRect).getD previousVisible)
        translateFloatingRestore sourceWork targetWork { client with geometry := { client.geometry with oldRect := old } }
      else if client.state.isFloating || client.state.isPip then
        match hiddenFloatingSlot sourceWork targetWork client realizedRestore visible with
        | none => client
        | some floating => { client with geometry := { client.geometry with floatingRect := floating } }
      else client
    let totalWidth := I32.saturatingAdd visible.w (I32.saturatingMul (max borderWidth 0) 2)
    let hiddenX := hiddenXLeftOfDesktop desktopLeft totalWidth
    ({ client with geometry := client.geometry.parkAt visible hiddenX }, true)

end

/-! ## What the three paths do -/

/-- The rectangles a client comes back to: on the screen, when it floats, after fullscreen and after maximize. -/
structure RestSlots where
  visible : Rect
  floating : Rect
  old : Rect
  restore : Option Rect
deriving DecidableEq

def ClientGeometry.slots (g : ClientGeometry) (visible : Rect) : RestSlots := ⟨visible, g.floatingRect, g.oldRect, g.maximizeRestoreRect⟩

/-- The rectangles of a client that shows at `shown`, after a move to another output. -/
def movedSlots (sourceWork : Option Rect) (targetMonitor targetWork : Rect) (c : WMClient) (shown : Rect) : RestSlots :=
  let translate := fun rect => translateAndClampRestoreRect rect sourceWork targetWork c.geometry.borderW
  let restore := if c.state.maximizedAxes.any then c.geometry.maximizeRestoreRect.map translate else c.geometry.maximizeRestoreRect
  let floating := ((validRect c.geometry.floatingRect).map translate).getD c.geometry.floatingRect
  if c.state.isFullscreen then ⟨targetMonitor, floating, translate c.geometry.oldRect, restore⟩
  else
    match restore.filter fun _ => c.isMaximizeRealized with
    | some rect =>
      ⟨maximizeTarget rect targetWork c.state.maximizedAxes c.geometry.borderW,
        if c.state.maximizeRestoreTiled then floating else rect, c.geometry.oldRect, restore⟩
    | none => ⟨translate shown, if c.state.isPip then floating else translate shown, c.geometry.oldRect, restore⟩

/-- A client that no layout places and that shows at `shown`. -/
structure FreelyPlaced (c : WMClient) (shown : Rect) : Prop where
  mode : (c.state.isFullscreen || c.state.isFloating || c.state.isPip) = true
  shown : 0 < shown.w ∧ 0 < shown.h
  old : c.state.isFullscreen = true → 0 < c.geometry.oldRect.w ∧ 0 < c.geometry.oldRect.h
  restore : c.state.maximizedAxes.any = c.geometry.maximizeRestoreRect.isSome

section

variable {sourceWork : Option Rect} {targetMonitor targetWork shown : Rect} {c : WMClient}

theorem filter_never (o : Option Rect) : (o.filter fun _ => false) = none := by
  cases o with
  | none | some rect => rfl

theorem validRect_eq {rect : Rect} (h : 0 < rect.w ∧ 0 < rect.h) : validRect rect = some rect := if_pos h

variable (sourceWork : Option Rect)

theorem translateFloatingRestore_eq (targetWork : Rect) (c : WMClient) :
    translateFloatingRestore sourceWork targetWork c = { c with geometry := { c.geometry with
      floatingRect := ((validRect c.geometry.floatingRect).map fun rect =>
        translateAndClampRestoreRect rect sourceWork targetWork c.geometry.borderW).getD c.geometry.floatingRect } } := by
  unfold translateFloatingRestore
  cases validRect c.geometry.floatingRect with
  | none | some rect => rfl

theorem translateMaximizeRestore_eq (targetWork : Rect) (c : WMClient) :
    translateMaximizeRestore sourceWork targetWork c = { c with geometry := { c.geometry with
      maximizeRestoreRect := if c.state.maximizedAxes.any then c.geometry.maximizeRestoreRect.map fun rect =>
        translateAndClampRestoreRect rect sourceWork targetWork c.geometry.borderW else c.geometry.maximizeRestoreRect } } := by
  unfold translateMaximizeRestore
  split
  · rfl
  · rfl

theorem isMaximizeRealized_geometry (c : WMClient) (geometry : ClientGeometry) :
    ({ c with geometry } : WMClient).isMaximizeRealized = c.isMaximizeRealized := rfl

theorem FreelyPlaced.realized (h : FreelyPlaced c shown) (hrealized : c.isMaximizeRealized = true) :
    c.state.maximizedAxes.any = true ∧ c.state.isFloating = true ∧ c.state.isPip = false ∧
      ∃ rect, c.geometry.maximizeRestoreRect = some rect := by
  unfold WMClient.isMaximizeRealized at hrealized
  simp only [Bool.and_eq_true, Bool.not_eq_true'] at hrealized
  obtain ⟨⟨⟨hany, hfloating⟩, -⟩, hpip⟩ := hrealized
  refine ⟨hany, hfloating, hpip, isSome_iff_exists.1 ?_⟩
  rw [← h.restore]
  exact hany

theorem FreelyPlaced.floating (h : FreelyPlaced c shown) (hfullscreen : c.state.isFullscreen = false) (hpip : c.state.isPip = false) :
    c.state.isFloating = true := by
  simpa [hfullscreen, hpip] using h.mode

/-- A client that is not minimized gets the rectangles of a moved one, wherever its window is now. -/
theorem migrateVisibleGeometry_eq (targetWork : Rect) (h : FreelyPlaced c shown)
    (hhidden : c.state.isHidden = false) (hdock : c.state.isDock = false)
    (hcurrent : (if c.geometry.hiddenX.isSome then c.geometry.hiddenRestoreRect.bind validRect else validRect c.geometry.rect) = some shown)
    (haway : (!c.geometry.hiddenX.isSome && alreadyPlaced targetMonitor c) = false) :
    migrateVisibleGeometry sourceWork targetMonitor targetWork c =
      let slots := movedSlots sourceWork targetMonitor targetWork c shown
      placeMigrated { c with geometry := { c.geometry with
        floatingRect := slots.floating, oldRect := slots.old, maximizeRestoreRect := slots.restore } } slots.visible := by
  unfold migrateVisibleGeometry migrateVisibleGeometryWithPolicy movedSlots
  rw [hhidden, hdock]
  simp only [translateFloatingRestore_eq, translateMaximizeRestore_eq, Bool.or_self, Bool.false_eq_true, if_false, Bool.not_false,
    Bool.true_and]
  cases hfullscreen : c.state.isFullscreen with
  | true =>
    have hold := validRect_eq (h.old hfullscreen)
    cases hpip : c.state.isPip with
    | true | false => simp only [hfullscreen, hpip, hold, haway, Bool.false_eq_true, if_false, if_true]
  | false =>
    cases hrealized : c.isMaximizeRealized with
    | true =>
      obtain ⟨hany, hfloating, hpip, restore, hrestore⟩ := h.realized hrealized
      cases htiled : c.state.maximizeRestoreTiled with
      | true | false =>
        simp only [hfullscreen, hpip, hany, hrestore, htiled, haway, hrealized, isMaximizeRealized_geometry, map_some,
          some_or, filter_some, Bool.false_eq_true, if_false, if_true]
    | false =>
      cases hpip : c.state.isPip with
      | true =>
        simp only [hfullscreen, hpip, haway, hcurrent, hrealized, isMaximizeRealized_geometry, filter_never, Bool.or_true,
          Bool.true_or, Bool.not_true, Bool.false_and, Bool.false_eq_true, if_false, if_true]
      | false =>
        simp only [hfullscreen, hpip, haway, hcurrent, hrealized, h.floating hfullscreen hpip, isMaximizeRealized_geometry, filter_never,
          Bool.true_or, Bool.not_false, Bool.and_true, Bool.false_eq_true, if_false, if_true]

theorem migrateHiddenRestoreGeometry_eq (targetMonitor targetWork : Rect) (desktopLeft : Int)
    (h : FreelyPlaced c shown) (hhidden : c.state.isHidden = true) (hshown : c.geometry.hiddenRestoreRect = some shown) :
    migrateHiddenRestoreGeometry sourceWork targetMonitor targetWork desktopLeft c =
      let slots := movedSlots sourceWork targetMonitor targetWork c shown
      let geometry : ClientGeometry := { c.geometry with
        floatingRect := slots.floating, oldRect := slots.old, maximizeRestoreRect := slots.restore }
      let totalWidth := I32.saturatingAdd slots.visible.w (I32.saturatingMul (max c.geometry.borderW 0) 2)
      ({ c with geometry := geometry.parkAt slots.visible (hiddenXLeftOfDesktop desktopLeft totalWidth) }, true) := by
  have hprevious : c.geometry.hiddenRestoreRect.bind validRect = some shown := by
    rw [hshown]
    exact validRect_eq h.shown
  unfold migrateHiddenRestoreGeometry movedSlots hiddenFloatingSlot ClientGeometry.parkAt
  rw [hhidden, hprevious]
  simp only [translateFloatingRestore_eq, translateMaximizeRestore_eq, isMaximizeRealized_geometry, Bool.not_true, Bool.false_eq_true,
    if_false, getD_some]
  cases hfullscreen : c.state.isFullscreen with
  | true =>
    have hold := validRect_eq (h.old hfullscreen)
    simp only [hold, getD_some, if_true]
  | false =>
    cases hrealized : c.isMaximizeRealized with
    | true =>
      obtain ⟨hany, hfloating, hpip, restore, hrestore⟩ := h.realized hrealized
      cases htiled : c.state.maximizeRestoreTiled with
      | true =>
        cases hvalid : validRect c.geometry.floatingRect with
        | none =>
          simp only [hany, hfloating, hrestore, map_some, map_none, getD_none, filter_some, Bool.true_or,
            Bool.false_eq_true, if_false, if_true]
        | some floating =>
          simp only [hany, hfloating, hrestore, map_some, getD_some, filter_some, Bool.true_or,
            Bool.false_eq_true, if_false, if_true]
      | false =>
        simp only [hany, hfloating, hrestore, map_some, filter_some, Bool.true_or, Bool.false_eq_true, if_false, if_true]
    | false =>
      cases hpip : c.state.isPip with
      | true =>
        cases hvalid : validRect c.geometry.floatingRect with
        | none =>
          simp only [filter_never, map_none, getD_none, Bool.or_true, Bool.false_eq_true, if_false, if_true]
        | some floating =>
          simp only [filter_never, map_some, getD_some, Bool.or_true, Bool.false_eq_true, if_false, if_true]
      | false =>
        simp only [h.floating hfullscreen hpip, filter_never, Bool.true_or, Bool.false_eq_true, if_false, if_true]

end

/-! ## Where a rectangle lands -/

def Rect.bordered (r : Rect) (borderW : Int) : Rect := ⟨r.x, r.y, r.w + 2 * max borderW 0, r.h + 2 * max borderW 0⟩

def Rect.shifted (r source target : Rect) : Rect := ⟨r.x + (target.x - source.x), r.y + (target.y - source.y), r.w, r.h⟩

/-- All four are `i32`. -/
structure Rect.Words (r : Rect) : Prop where
  x : I32.Holds r.x
  y : I32.Holds r.y
  w : I32.Holds r.w
  h : I32.Holds r.h

section

variable {position size target available border2 : Int} {source : Option Int}

theorem clamp_of_holds {n : Int} (h : I32.Holds n) : I32.clamp n = n := by
  unfold I32.Holds at h
  unfold I32.clamp
  omega

theorem translateAxis_inside (htarget : I32.Holds target) (havailable : I32.Holds available) (hborder : 0 ≤ border2)
    (hroom : border2 < available) :
    target ≤ (translateAxis position size source target available border2).1 ∧
      (translateAxis position size source target available border2).1 +
        ((translateAxis position size source target available border2).2 + border2) ≤ target + available := by
  unfold I32.Holds at htarget havailable
  have hinner : I32.saturatingSub available border2 = available - border2 := by
    refine clamp_of_holds ?_
    unfold I32.Holds I32.min I32.max at *
    omega
  unfold translateAxis
  rw [hinner]
  dsimp only
  generalize hwidth : min (max size 1) (max (available - border2) 1) = width
  have hwidths : 1 ≤ width ∧ width ≤ available - border2 := by omega
  have hspan : I32.saturatingAdd width border2 = width + border2 := by
    refine clamp_of_holds ?_
    unfold I32.Holds I32.min I32.max at *
    omega
  rw [hspan]
  -- the area may end beyond the last coordinate: its end is then cut, never moved on
  have hlast : I32.saturatingSub (I32.saturatingAdd target available) (width + border2) ≤
      max target (target + available - (width + border2)) := by
    unfold I32.saturatingSub I32.saturatingAdd I32.clamp
    omega
  constructor
  · exact Int.le_max_left _ _
  · generalize I32.saturatingSub (I32.saturatingAdd target available) (width + border2) = last at hlast
    omega

theorem translateAxis_shift {origin : Int} (htarget : I32.Holds target) (havailable : I32.Holds available) (hborder : 0 ≤ border2)
    (hsize : 0 < size) (hleft : target ≤ position + (target - origin))
    (hright : position + (target - origin) + (size + border2) ≤ target + available)
    (hword : position + (target - origin) + (size + border2) ≤ I32.max) :
    translateAxis position size (some origin) target available border2 = (position + (target - origin), size) := by
  unfold I32.Holds at htarget havailable
  have hinner : I32.saturatingSub available border2 = available - border2 := by
    refine clamp_of_holds ?_
    unfold I32.Holds I32.min I32.max at *
    omega
  have hwidth : min (max size 1) (max (available - border2) 1) = size := by omega
  have hoffset : I32.saturatingSub position origin = position - origin := by
    refine clamp_of_holds ?_
    unfold I32.Holds I32.min I32.max at *
    omega
  have hmoved : I32.saturatingAdd target (position - origin) = position + (target - origin) := by
    rw [show position + (target - origin) = target + (position - origin) by omega]
    refine clamp_of_holds ?_
    unfold I32.Holds
    omega
  have hspan : I32.saturatingAdd size border2 = size + border2 := by
    refine clamp_of_holds ?_
    unfold I32.Holds I32.min I32.max at *
    omega
  have hlast : position + (target - origin) ≤ I32.saturatingSub (I32.saturatingAdd target available) (size + border2) := by
    unfold I32.saturatingSub I32.saturatingAdd I32.clamp
    omega
  unfold translateAxis
  rw [hinner, hwidth]
  dsimp only
  rw [hspan, hoffset, hmoved]
  generalize I32.saturatingSub (I32.saturatingAdd target available) (size + border2) = last at hlast
  rw [Prod.mk.injEq]
  constructor
  · omega
  · rfl

end

section

variable {rect sourceRect targetWork : Rect} {sourceWork : Option Rect} {borderW : Int}

theorem saturatingMul_border {extent : Int} (hextent : I32.Holds extent) (hroom : 2 * max borderW 0 < extent) :
    I32.saturatingMul (max borderW 0) 2 = 2 * max borderW 0 := by
  unfold I32.Holds at hextent
  unfold I32.saturatingMul I32.clamp
  unfold I32.min I32.max at *
  omega

theorem translate_inside (hwords : targetWork.Words) (hroom : 2 * max borderW 0 < targetWork.w ∧ 2 * max borderW 0 < targetWork.h) :
    ((translateAndClampRestoreRect rect sourceWork targetWork borderW).bordered borderW).Within targetWork := by
  have hborder := saturatingMul_border hwords.w hroom.1
  have hw : max targetWork.w 1 = targetWork.w := by omega
  have hh : max targetWork.h 1 = targetWork.h := by omega
  unfold translateAndClampRestoreRect Rect.bordered
  rw [hborder, hw, hh]
  obtain ⟨hleft, hright⟩ := @translateAxis_inside rect.x rect.w _ _ _ (sourceWork.map (·.x)) hwords.x hwords.w
    (Int.mul_nonneg (by decide) (Int.le_max_right borderW 0)) hroom.1
  obtain ⟨htop, hbottom⟩ := @translateAxis_inside rect.y rect.h _ _ _ (sourceWork.map (·.y)) hwords.y hwords.h
    (Int.mul_nonneg (by decide) (Int.le_max_right borderW 0)) hroom.2
  constructor
  · exact hleft
  · exact htop
  · exact hright
  · exact hbottom

theorem translate_shift (hwords : targetWork.Words) (hrect : 0 < rect.w ∧ 0 < rect.h)
    (hfits : ((rect.shifted sourceRect targetWork).bordered borderW).Within targetWork)
    (hright : ((rect.shifted sourceRect targetWork).bordered borderW).x + ((rect.shifted sourceRect targetWork).bordered borderW).w ≤ I32.max)
    (hbottom : ((rect.shifted sourceRect targetWork).bordered borderW).y + ((rect.shifted sourceRect targetWork).bordered borderW).h ≤ I32.max) :
    translateAndClampRestoreRect rect (some sourceRect) targetWork borderW = rect.shifted sourceRect targetWork := by
  obtain ⟨hl, ht, hr, hb⟩ := hfits
  unfold Rect.bordered Rect.shifted at hl ht hr hb hright hbottom
  dsimp only at hl ht hr hb hright hbottom
  have hborder := @saturatingMul_border borderW _ hwords.w (by omega)
  have hw : max targetWork.w 1 = targetWork.w := by omega
  have hh : max targetWork.h 1 = targetWork.h := by omega
  unfold translateAndClampRestoreRect Rect.shifted
  rw [hborder, hw, hh, map_some, map_some]
  dsimp only
  rw [translateAxis_shift hwords.x hwords.w (by omega) hrect.1 hl hr hright,
    translateAxis_shift hwords.y hwords.h (by omega) hrect.2 ht hb hbottom]

end

/-! ## Moving and minimizing -/

/-- On the screen, not placed by a layout and not on the target output yet. -/
structure Movable (targetMonitor : Rect) (c : WMClient) : Prop where
  placed : FreelyPlaced c c.geometry.rect
  hidden : c.state.isHidden = false
  hiddenX : c.geometry.hiddenX = none
  dock : c.state.isDock = false
  away : alreadyPlaced targetMonitor c = false

def WMClient.parkedAt (c : WMClient) (parked : Rect) (hiddenX : Int) : WMClient :=
  { c with geometry := { c.geometry with hiddenRestoreRect := some c.geometry.rect, hiddenX := some hiddenX, rect := parked } }

def WMClient.minimizedAt (c : WMClient) (parked : Rect) (hiddenX : Option Int) : WMClient :=
  { c with
    geometry := { c.geometry with hiddenRestoreRect := some c.geometry.rect, hiddenX, rect := parked }
    state := { c.state with isHidden := true } }

def ClientGeometry.restingSlots (g : ClientGeometry) : Option RestSlots := g.hiddenRestoreRect.map g.slots

section

variable {sourceWork : Option Rect} {targetMonitor targetWork : Rect} {c : WMClient}

theorem FreelyPlaced.parkedAt {shown : Rect} (h : FreelyPlaced c shown) (parked : Rect) (hiddenX : Int) :
    FreelyPlaced (c.parkedAt parked hiddenX) shown := by
  constructor
  · exact h.mode
  · exact h.shown
  · exact h.old
  · exact h.restore

theorem FreelyPlaced.minimizedAt {shown : Rect} (h : FreelyPlaced c shown) (parked : Rect) (hiddenX : Option Int) :
    FreelyPlaced (c.minimizedAt parked hiddenX) shown := by
  constructor
  · exact h.mode
  · exact h.shown
  · exact h.old
  · exact h.restore

theorem Movable.migrateVisibleGeometry (h : Movable targetMonitor c) (sourceWork : Option Rect) (targetWork : Rect) :
    let moved := migrateVisibleGeometry sourceWork targetMonitor targetWork c
    moved.2 = .live ∧ moved.1.geometry.slots moved.1.geometry.rect = movedSlots sourceWork targetMonitor targetWork c c.geometry.rect := by
  rw [migrateVisibleGeometry_eq sourceWork targetWork h.placed h.hidden h.dock
    (by rw [h.hiddenX]; exact validRect_eq h.placed.shown) (by rw [h.away]; exact Bool.and_false _)]
  unfold placeMigrated
  rw [if_neg (by simp [h.hiddenX])]
  constructor
  · rfl
  · rfl

theorem Movable.migrateParked (h : Movable targetMonitor c) (sourceWork : Option Rect) (targetWork parked : Rect) (hiddenX : Int) :
    let moved := Jwm.migrateVisibleGeometry sourceWork targetMonitor targetWork (c.parkedAt parked hiddenX)
    moved.2 = .parked ∧ moved.1.geometry.restingSlots = some (movedSlots sourceWork targetMonitor targetWork c c.geometry.rect) := by
  rw [migrateVisibleGeometry_eq sourceWork targetWork (h.placed.parkedAt parked hiddenX) h.hidden h.dock
    (validRect_eq h.placed.shown) rfl]
  constructor
  · rfl
  · rfl

theorem Movable.migrateMinimized (h : Movable targetMonitor c) (sourceWork : Option Rect) (targetWork parked : Rect)
    (hiddenX : Option Int) (desktopLeft : Int) :
    let moved := migrateHiddenRestoreGeometry sourceWork targetMonitor targetWork desktopLeft (c.minimizedAt parked hiddenX)
    moved.2 = true ∧ moved.1.geometry.restingSlots = some (movedSlots sourceWork targetMonitor targetWork c c.geometry.rect) := by
  rw [migrateHiddenRestoreGeometry_eq sourceWork targetMonitor targetWork desktopLeft (h.placed.minimizedAt parked hiddenX) rfl rfl]
  constructor
  · rfl
  · rfl

end

/-- Minimized, parked or on the screen: a client that no layout places comes back to the same four rectangles. -/
theorem output_move_commutes_with_minimize (sourceWork : Option Rect) (targetMonitor targetWork parked : Rect) (hiddenX : Int)
    (hiddenX' : Option Int) (desktopLeft : Int) (c : WMClient) (h : Movable targetMonitor c) :
    let shown := migrateVisibleGeometry sourceWork targetMonitor targetWork c
    let unviewed := migrateVisibleGeometry sourceWork targetMonitor targetWork (c.parkedAt parked hiddenX)
    let minimized := migrateHiddenRestoreGeometry sourceWork targetMonitor targetWork desktopLeft (c.minimizedAt parked hiddenX')
    (shown.2 = .live ∧ unviewed.2 = .parked ∧ minimized.2 = true ∧
      minimized.1.geometry.restingSlots = some (shown.1.geometry.slots shown.1.geometry.rect) ∧
      minimized.1.geometry.restingSlots = unviewed.1.geometry.restingSlots) ∧
    (targetWork.Words → ∀ (rect : Rect) (borderW : Int), 2 * max borderW 0 < targetWork.w ∧ 2 * max borderW 0 < targetWork.h →
      ((translateAndClampRestoreRect rect sourceWork targetWork borderW).bordered borderW).Within targetWork) ∧
    (targetWork.Words → ∀ (rect sourceRect : Rect) (borderW : Int), 0 < rect.w ∧ 0 < rect.h →
      let shifted := (rect.shifted sourceRect targetWork).bordered borderW
      shifted.Within targetWork → shifted.x + shifted.w ≤ I32.max → shifted.y + shifted.h ≤ I32.max →
        translateAndClampRestoreRect rect (some sourceRect) targetWork borderW = rect.shifted sourceRect targetWork) := by
  intro shown unviewed minimized
  obtain ⟨hlive, hslots⟩ := h.migrateVisibleGeometry sourceWork targetWork
  obtain ⟨hparked, hunviewed⟩ := h.migrateParked sourceWork targetWork parked hiddenX
  obtain ⟨htrue, hminimized⟩ := h.migrateMinimized sourceWork targetWork parked hiddenX' desktopLeft
  constructor
  · refine ⟨hlive, hparked, htrue, ?_, ?_⟩
    · rw [hminimized]
      exact congrArg some hslots.symm
    · exact hminimized.trans hunviewed.symm
  · constructor
    · intro hwords rect borderW hroom
      exact translate_inside hwords hroom
    · intro hwords rect sourceRect borderW hrect shifted hfits hright hbottom
      exact translate_shift hwords hrect hfits hright hbottom

namespace Sample

/-- A floating window with a frame of two pixels on the left output. -/
def floatingNote : WMClient :=
  { plainClient leftMon with
    geometry := { floatingRect := ⟨100, 50, 640, 480⟩, rect := ⟨100, 50, 640, 480⟩, borderW := 2 }
    state := { (plainClient leftMon).state with isFloating := true } }

theorem floatingNote_movable : Movable ⟨1920, 0, 1920, 1080⟩ floatingNote := by
  constructor
  · constructor
    · rfl
    · decide
    · intro h
      cases h
    · rfl
  · rfl
  · rfl
  · rfl
  · rfl

end Sample

/-- The note minimized on the left output comes back a screen further right, below the bar. -/
theorem output_move_commutes_with_minimize_note :
    (migrateHiddenRestoreGeometry (some ⟨0, 0, 1920, 1080⟩) ⟨1920, 0, 1920, 1080⟩ ⟨1920, 30, 1920, 1050⟩ 0
        (Sample.floatingNote.minimizedAt ⟨-660, 50, 640, 480⟩ (some (-660)))).1.geometry.restingSlots =
      some ⟨⟨2020, 80, 640, 480⟩, ⟨2020, 80, 640, 480⟩, Sample.floatingNote.geometry.oldRect, none⟩ ∧
    ((translateAndClampRestoreRect ⟨100, 900, 640, 480⟩ (some ⟨0, 0, 1920, 1080⟩) ⟨1920, 30, 1920, 1050⟩ 2).bordered 2).Within
      ⟨1920, 30, 1920, 1050⟩ ∧
    translateAndClampRestoreRect ⟨100, 50, 640, 480⟩ (some ⟨0, 0, 1920, 1080⟩) ⟨1920, 30, 1920, 1050⟩ 2 = ⟨2020, 80, 640, 480⟩ := by
  have hwords : (⟨1920, 30, 1920, 1050⟩ : Rect).Words := by
    constructor
    · exact ⟨by decide, by decide⟩
    · exact ⟨by decide, by decide⟩
    · exact ⟨by decide, by decide⟩
    · exact ⟨by decide, by decide⟩
  obtain ⟨⟨-, -, -, hslots, -⟩, hinside, hshift⟩ := output_move_commutes_with_minimize (some ⟨0, 0, 1920, 1080⟩) ⟨1920, 0, 1920, 1080⟩
    ⟨1920, 30, 1920, 1050⟩ ⟨-660, 50, 640, 480⟩ (-660) (some (-660)) 0 Sample.floatingNote Sample.floatingNote_movable
  refine ⟨?_, hinside hwords _ _ (by decide), ?_⟩
  · rw [hslots]
    decide
  · refine hshift hwords ⟨100, 50, 640, 480⟩ ⟨0, 0, 1920, 1080⟩ 2 (by decide) ?_ (by decide) (by decide)
    constructor
    · decide
    · decide
    · decide
    · decide

/-- A floating dock and a maximized tiled client keep their rectangle when shown, not when minimized; and a rectangle that
fits an area beyond the last coordinate is pushed back. -/
theorem docks_and_tiled_stay :
    let left : Rect := ⟨0, 0, 1920, 1080⟩
    let right : Rect := ⟨1920, 0, 1920, 1080⟩
    let note := Sample.floatingNote
    let dock : WMClient := { note with state := { note.state with isDock := true } }
    let tiled : WMClient :=
      { note with
        geometry := { note.geometry with maximizeRestoreRect := some left }
        state := { note.state with isFloating := false, isMaximizedHorz := true } }
    let moved := fun c => (migrateVisibleGeometry (some left) right right c).1.geometry
    let minimized := fun (c : WMClient) =>
      (migrateHiddenRestoreGeometry (some left) right right 0 (c.minimizedAt left none)).1.geometry.restingSlots
    let edge : Rect := ⟨2147483000, 0, 1920, 1080⟩
    minimized dock ≠ some ((moved dock).slots (moved dock).rect) ∧
      minimized tiled ≠ some ((moved tiled).slots (moved tiled).rect) ∧
      translateAndClampRestoreRect note.geometry.rect (some left) edge 2 ≠ note.geometry.rect.shifted left edge ∧
      ((note.geometry.rect.shifted left edge).bordered 2).Within edge := by
  refine ⟨?_, ?_, ?_, ?_⟩
  · decide
  · decide
  · decide
  · constructor
    · decide
    · decide
    · decide
    · decide

end Jwm
