/-
Platform-neutral maximize decisions (`core/maximize.rs`): admission, the resting slot and the plan
one axis change commits. Rectangles are outer origin and content size, the border drawn outside.
-/
import Jwm.Core.Types

namespace Jwm

open I32

/-- Who asked for a maximize change. -/
inductive MaximizeOrigin where
  | client | user | adopt
deriving DecidableEq

inductive MaximizeAdmission where
  | apply | promote | reject
deriving DecidableEq

/-- Client and monitor facts that admission depends on. -/
structure MaximizeFacts where
  restingFloating : Bool
  floatLayout : Bool
  suspended : Bool
  isFixed : Bool
  isDock : Bool
  hasWorkArea : Bool
deriving DecidableEq

/-- The rectangle a client occupies once transient modes end. -/
inductive RestingSlot where
  | live | hiddenRestore | fullscreenReturn | pipReturn
deriving DecidableEq

def restingSlot (isFullscreen isPip parked : Bool) : RestingSlot :=
  if isFullscreen then .fullscreenReturn
  else if isPip then .pipReturn
  else if parked then .hiddenRestore
  else .live

structure MaximizeInput where
  current : MaximizeAxes
  restore : Option Rect
  restoreHint : Option Rect
  resting : Rect
  area : Rect
  borderW : Int
deriving DecidableEq

structure MaximizePlan where
  axes : MaximizeAxes
  restoreRect : Option Rect
  restingRect : Rect
deriving DecidableEq

/-! ## Admission -/

def admitMaximize (current next : MaximizeAxes) (facts : MaximizeFacts) (origin : MaximizeOrigin) :
    MaximizeAdmission :=
  -- giving up axes is always allowed
  if !next.gainsOver current then .apply
  else if !facts.hasWorkArea || facts.isDock || facts.isFixed then .reject
  else if facts.restingFloating then .apply
  else if facts.suspended then .reject
  else if facts.floatLayout || origin == .user then .promote
  else .reject

/-! ## Geometry -/

/-- Content size that leaves room for a border on both sides of `extent`. -/
def innerExtent (extent borderW : Int) : Int :=
  max (saturatingSub extent (saturatingMul borderW 2)) 1

def maximizeTarget (restore area : Rect) (axes : MaximizeAxes) (borderW : Int) : Rect :=
  let rect := restore
  let rect := if axes.horz then { rect with x := area.x, w := innerExtent area.w borderW } else rect
  if axes.vert then { rect with y := area.y, h := innerExtent area.h borderW } else rect

/-- `restore` with its non-maximized components taken from `live`. -/
def mirrorFreeAxes (restore live : Rect) (axes : MaximizeAxes) : Rect :=
  let rect := restore
  let rect := if !axes.horz then { rect with x := live.x, w := live.w } else rect
  if !axes.vert then { rect with y := live.y, h := live.h } else rect

/-- `outer` covers at least 90% of `available`. -/
def coversNineTenths (outer available : Int) : Bool := outer * 10 ≥ available * 9

/-- Two thirds of `extent`, rounded towards zero. -/
def twoThirds (extent : Int) : Int :=
  let third := (extent * 2).tdiv 3
  if min ≤ third ∧ third ≤ max then third else extent

/-- `resting`, unless it nearly fills the area: then a centered two-thirds rectangle, so that leaving
maximize is visible. -/
def initialRestoreRect (resting area : Rect) (borderW : Int) : Rect :=
  let border := saturatingMul borderW 2
  let nearFull := coversNineTenths (saturatingAdd resting.w border) area.w &&
    coversNineTenths (saturatingAdd resting.h border) area.h
  if !nearFull then resting
  else
    let w := max (saturatingSub (twoThirds area.w) border) 1
    let h := max (saturatingSub (twoThirds area.h) border) 1
    { x := saturatingAdd area.x ((saturatingSub area.w (saturatingAdd w border)).tdiv 2)
      y := saturatingAdd area.y ((saturatingSub area.h (saturatingAdd h border)).tdiv 2)
      w, h }

def planMaximize (input : MaximizeInput) (next : MaximizeAxes) : MaximizePlan :=
  if next = input.current then
    { axes := input.current, restoreRect := input.restore, restingRect := input.resting }
  else
    let fallback := initialRestoreRect input.resting input.area input.borderW
    -- while maximized, the free axes of the resting rect are the user's own
    let base :=
      if input.current.any then
        (input.restore.map fun restore => mirrorFreeAxes restore input.resting input.current).getD fallback
      else input.restoreHint.getD fallback
    if next.any then
      { axes := next, restoreRect := some base, restingRect := maximizeTarget base input.area next input.borderW }
    else { axes := .none, restoreRect := none, restingRect := base }

end Jwm
