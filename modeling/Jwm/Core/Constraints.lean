/-
Where a window may be and how large (`jwm/geometry.rs`): size hints, the configurable band of a side,
and keeping a pixel of the window on its monitor.
-/
import Jwm.Core.Models

namespace Jwm

/-! ## Sizes -/

def minConstrainedDimension : Int := 1

/-- A `ConfigureWindow` side is a 16-bit word. -/
def maxConstrainedDimension : Int := 65535

def clampDimension (value : Int) : Int := max minConstrainedDimension (min maxConstrainedDimension value)

/-- A multiple of `increment`, rounded towards zero. -/
def alignedOffset (offset increment : Int) : Int :=
  if increment > 0 then offset.tdiv increment * increment else offset

def incrementAlignedDimension (size base increment : Int) : Int :=
  clampDimension (alignedOffset (size - base) increment + base)

/-- An aspect out of range shortens the side that is too long. -/
def applyAspectRatioConstraints (w h : Int) (hints : SizeHints) : Int × Int :=
  if 0 < hints.minAspect ∧ 0 < hints.maxAspect ∧ w > 0 ∧ h > 0 then
    let ratio := Float32.ofInt w / Float32.ofInt h
    if ratio < hints.minAspect then (w, (Float32.ofInt w / hints.minAspect + 0.5).toInt32.toInt)
    else if ratio > hints.maxAspect then ((Float32.ofInt h * hints.maxAspect + 0.5).toInt32.toInt, h)
    else (w, h)
  else (w, h)

def calculateConstrainedSize (w h : Int) (hints : SizeHints) : Int × Int :=
  let (w, h) := applyAspectRatioConstraints w h hints
  let w := max (incrementAlignedDimension w hints.baseW hints.incW) (clampDimension hints.minW)
  let h := max (incrementAlignedDimension h hints.baseH hints.incH) (clampDimension hints.minH)
  let w := if hints.maxW > 0 then min w (clampDimension hints.maxW) else w
  let h := if hints.maxH > 0 then min h (clampDimension hints.maxH) else h
  (w, h)

/-! ## Positions -/

/-- Move `position` so that a pixel of `total` stays within `span` pixels from `origin`. -/
def constrainAxis (position origin span total : Int) : Int :=
  let lower := origin - max total 1 + 1
  let upper := origin + span - 1
  I32.clamp (if lower ≤ upper then max lower (min upper position) else lower)

/-- `constrain_to_monitor_wide`: one axis after the other, against the monitor's work rectangle. -/
def constrainToMonitor (x y totalWidth totalHeight : Int) (g : MonitorGeometry) : Int × Int :=
  (constrainAxis x g.wX g.wW totalWidth, constrainAxis y g.wY g.wH totalHeight)

/-! ## What leaves a rectangle alone -/

/-- No constraint is set, whether the hints were asked for or not. -/
structure SizeHints.Unset (hints : SizeHints) : Prop where
  eq : { hints with hintsValid := false } = ({} : SizeHints)

/-- Both sides are sides a window can be configured to. -/
structure Rect.Configurable (r : Rect) : Prop where
  w : 1 ≤ r.w ∧ r.w ≤ maxConstrainedDimension
  h : 1 ≤ r.h ∧ r.h ≤ maxConstrainedDimension

theorem incrementAlignedDimension_unset {size : Int} (h : 1 ≤ size ∧ size ≤ maxConstrainedDimension) :
    incrementAlignedDimension size 0 0 = size := by
  unfold incrementAlignedDimension alignedOffset clampDimension minConstrainedDimension
  rw [if_neg (by decide), Int.sub_zero, Int.add_zero, min_eq_right h.2, max_eq_right h.1]

theorem not_zero_lt_zero : ¬ (0 : Float32) < 0 := by decide

theorem calculateConstrainedSize_unset {r : Rect} {hints : SizeHints} (hu : hints.Unset) (hr : r.Configurable) :
    calculateConstrainedSize r.w r.h hints = (r.w, r.h) := by
  have h : calculateConstrainedSize r.w r.h hints = calculateConstrainedSize r.w r.h ({} : SizeHints) := by
    rw [← hu.eq]
    rfl
  have ha : applyAspectRatioConstraints r.w r.h ({} : SizeHints) = (r.w, r.h) :=
    if_neg fun ⟨h, _⟩ => not_zero_lt_zero h
  have hclamp : clampDimension 0 = 1 := by decide
  rw [h]
  unfold calculateConstrainedSize
  rw [ha]
  dsimp only
  rw [incrementAlignedDimension_unset hr.w, incrementAlignedDimension_unset hr.h, hclamp, max_eq_left hr.w.1,
    max_eq_left hr.h.1, if_neg (by decide), if_neg (by decide)]

theorem constrainAxis_inside {position origin span total : Int} (ho : origin ≤ position) (hs : position < origin + span)
    (hi : I32.min ≤ position ∧ position ≤ I32.max) : constrainAxis position origin span total = position := by
  have hone : 1 ≤ max total 1 := le_max_right _ _
  have hlower : origin - max total 1 + 1 ≤ position := by omega
  have hupper : position ≤ origin + span - 1 := by omega
  unfold constrainAxis I32.clamp
  dsimp only
  rw [if_pos (hlower.trans hupper), min_eq_right hupper, max_eq_right hlower, min_eq_right hi.2, max_eq_right hi.1]

end Jwm
