/-
Damage of a compositor (`x11/compositor/common/dirty_region.rs`): rectangles clipped to the screen, merged with near or overlapping ones,
and a bound on their number. Sums of coordinates wrap, as they do in a build without overflow checks.
-/
import Mathlib.Algebra.Ring.Int.Defs
import Mathlib.Algebra.Ring.Nat

namespace Jwm.Compositor

/-- The `i32` that a whole number is stored as. -/
def wrapI32 (n : Int) : Int := n.bmod (2 ^ 32)

/-- `as u32`. -/
def asU32 (n : Int) : Nat := (n % 2 ^ 32).toNat

/-- `u64::saturating_add`. -/
def saturatingAddU64 (a b : Nat) : Nat := min (a + b) (2 ^ 64 - 1)

structure DirtyRect where
  x : Int
  y : Int
  width : Nat
  height : Nat
  deriving DecidableEq

namespace DirtyRect

/-- `x + width as i32`. -/
def right (r : DirtyRect) : Int := wrapI32 (r.x + wrapI32 r.width)

def bottom (r : DirtyRect) : Int := wrapI32 (r.y + wrapI32 r.height)

def intersects (r other : DirtyRect) : Bool :=
  r.x < other.right && r.right > other.x && r.y < other.bottom && r.bottom > other.y

def union (r other : DirtyRect) : DirtyRect :=
  let minX := min r.x other.x
  let minY := min r.y other.y
  let maxX := max r.right other.right
  let maxY := max r.bottom other.bottom
  { x := minX
    y := minY
    width := asU32 (wrapI32 (maxX - minX))
    height := asU32 (wrapI32 (maxY - minY)) }

def area (r : DirtyRect) : Nat := r.width * r.height

end DirtyRect

structure DirtyRegionTracker where
  regions : List DirtyRect
  mergedRegion : Option DirtyRect
  screenW : Nat
  screenH : Nat
  maxRegions : Nat
  minRectArea : Nat
  mergeDistanceThreshold : Int
  mergeCount : Nat
  deriving DecidableEq

namespace DirtyRegionTracker

def withThresholds (screenW screenH minArea : Nat) (mergeDistance : Int) : DirtyRegionTracker where
  regions := []
  mergedRegion := none
  screenW := screenW
  screenH := screenH
  maxRegions := 16
  minRectArea := minArea
  mergeDistanceThreshold := mergeDistance
  mergeCount := 0

variable (t : DirtyRegionTracker)

/-- The rectangle within the screen, if anything of it is. -/
def clip (rect : DirtyRect) : Option DirtyRect :=
  let x0 := max rect.x 0
  let y0 := max rect.y 0
  let right := min rect.right (wrapI32 t.screenW)
  let bottom := min rect.bottom (wrapI32 t.screenH)
  if right ≤ x0 ∨ bottom ≤ y0 then none
  else some { x := x0, y := y0, width := asU32 (wrapI32 (right - x0)), height := asU32 (wrapI32 (bottom - y0)) }

/-- Whether a region takes the new rectangle in: its corner is near, or the two overlap. -/
def takes (clamped existing : DirtyRect) : Bool :=
  let dx := wrapI32 (wrapI32 (clamped.x - existing.x)).natAbs
  let dy := wrapI32 (wrapI32 (clamped.y - existing.y)).natAbs
  (dx ≤ t.mergeDistanceThreshold && dy ≤ t.mergeDistanceThreshold) || clamped.intersects existing

/-- The loop of `merge_regions` from the region it has come to, with the merges counted. -/
def mergeAdjacent : DirtyRect → List DirtyRect → Nat → List DirtyRect × Nat
  | current, [], count => ([current], count)
  | current, next :: rest, count =>
    if current.intersects next then mergeAdjacent (current.union next) rest (saturatingAddU64 count 1)
    else (current :: (mergeAdjacent next rest count).1, (mergeAdjacent next rest count).2)

def mergeRegions : DirtyRegionTracker :=
  match t.regions with
  | first :: second :: rest =>
    let merged := mergeAdjacent first (second :: rest) t.mergeCount
    if merged.1.length > t.maxRegions then
      { t with
        regions := [merged.1.tail.foldl DirtyRect.union (merged.1.headD first)]
        mergeCount := saturatingAddU64 merged.2 (merged.1.length - 1) }
    else { t with regions := merged.1, mergeCount := merged.2 }
  | _ => t

/-- A clipped rectangle joins the first region that takes it, or becomes one. -/
def insert (clamped : DirtyRect) : DirtyRegionTracker :=
  match t.regions.findIdx? (t.takes clamped) with
  | some idx =>
    { t with
      regions := t.regions.modify idx fun existing => existing.union clamped
      mergeCount := saturatingAddU64 t.mergeCount 1 }
  | none => { t with regions := t.regions ++ [clamped] }

def markDirty (rect : DirtyRect) : DirtyRegionTracker :=
  if rect.area < t.minRectArea then t
  else
    match t.clip rect with
    | none => t
    | some clamped =>
      let t := t.insert clamped
      let t := if t.regions.length > t.maxRegions then t.mergeRegions else t
      { t with mergedRegion := none }

def fullScreen : DirtyRect := ⟨0, 0, t.screenW, t.screenH⟩

def markAllDirty : DirtyRegionTracker :=
  { t with regions := [t.fullScreen], mergedRegion := some t.fullScreen }

def merged : DirtyRegionTracker × Option DirtyRect :=
  match t.mergedRegion with
  | some cached => (t, some cached)
  | none =>
    match t.regions with
    | [] => (t, none)
    | first :: rest =>
      let result := rest.foldl DirtyRect.union first
      ({ t with mergedRegion := some result }, some result)

def clear : DirtyRegionTracker := { t with regions := [], mergedRegion := none }

def isRegionDirty (rect : DirtyRect) : Bool := t.regions.any fun r => r.intersects rect

def resize (newW newH : Nat) : DirtyRegionTracker :=
  { t with screenW := newW, screenH := newH }.markAllDirty

end DirtyRegionTracker

/-! ## Rectangles -/

namespace DirtyRect

def Has (r : DirtyRect) (px py : Int) : Prop := r.x ≤ px ∧ px < r.x + r.width ∧ r.y ≤ py ∧ py < r.y + r.height

/-- All four edges are `i32`s. -/
structure EdgesFit (r : DirtyRect) : Prop where
  left : -2 ^ 31 ≤ r.x
  right : r.x + r.width ≤ 2 ^ 31 - 1
  top : -2 ^ 31 ≤ r.y
  bottom : r.y + r.height ≤ 2 ^ 31 - 1

/-- The rectangle lies within another. -/
structure Within (r outer : DirtyRect) : Prop where
  left : outer.x ≤ r.x
  right : r.x + r.width ≤ outer.x + outer.width
  top : outer.y ≤ r.y
  bottom : r.y + r.height ≤ outer.y + outer.height

variable {r r' r'' : DirtyRect} {px py : Int} {w h : Nat}

theorem Within.refl (r : DirtyRect) : r.Within r := by constructor <;> exact Int.le_refl _

theorem Within.trans (h : r.Within r') (h' : r'.Within r'') : r.Within r'' := by
  obtain ⟨hl, hr, ht, hb⟩ := h
  obtain ⟨hl', hr', ht', hb'⟩ := h'
  constructor <;> omega

theorem Within.has (h : r.Within r') (hp : r.Has px py) : r'.Has px py := by
  obtain ⟨hl, hr, ht, hb⟩ := h
  obtain ⟨h1, h2, h3, h4⟩ := hp
  refine ⟨?_, ?_, ?_, ?_⟩ <;> omega

theorem wrapI32_eq {n : Int} (hlow : -2 ^ 31 ≤ n) (hhigh : n ≤ 2 ^ 31 - 1) : wrapI32 n = n :=
  Int.bmod_eq_of_le (by omega) (by omega)

theorem asU32_eq {n : Int} (hlow : 0 ≤ n) (hhigh : n < 2 ^ 32) : (asU32 n : Int) = n := by
  unfold asU32
  omega

/-- The sums wrap on the way only: an edge that is an `i32` is computed right, however wide the rectangle. -/
theorem EdgesFit.right_eq (h : r.EdgesFit) : r.right = r.x + r.width := by
  have hx := h.left
  have hr := h.right
  unfold DirtyRect.right wrapI32
  rw [Int.add_bmod_bmod]
  exact wrapI32_eq (by omega) hr

theorem EdgesFit.bottom_eq (h : r.EdgesFit) : r.bottom = r.y + r.height := by
  have hy := h.top
  have hb := h.bottom
  unfold DirtyRect.bottom wrapI32
  rw [Int.add_bmod_bmod]
  exact wrapI32_eq (by omega) hb

theorem intersects_of_has (hr : r.EdgesFit) (hr' : r'.EdgesFit) (h : r.Has px py) (h' : r'.Has px py) : r.intersects r' = true := by
  obtain ⟨h1, h2, h3, h4⟩ := h
  obtain ⟨h1', h2', h3', h4'⟩ := h'
  unfold intersects
  rw [hr.right_eq, hr.bottom_eq, hr'.right_eq, hr'.bottom_eq]
  simp only [Bool.and_eq_true, decide_eq_true_eq]
  omega

def OnScreen (w h : Nat) (r : DirtyRect) : Prop := 0 ≤ r.x ∧ r.x + r.width ≤ w ∧ 0 ≤ r.y ∧ r.y + r.height ≤ h

theorem OnScreen.edgesFit (hr : r.OnScreen w h) (hw : w ≤ 32767) (hh : h ≤ 32767) : r.EdgesFit := by
  obtain ⟨h1, h2, h3, h4⟩ := hr
  constructor <;> omega

theorem union_edges (hw : w ≤ 32767) (hh : h ≤ 32767) (hr : r.OnScreen w h) (hr' : r'.OnScreen w h) :
    (r.union r').x = min r.x r'.x ∧ (r.union r').y = min r.y r'.y ∧
      (r.union r').x + (r.union r').width = max (r.x + r.width) (r'.x + r'.width) ∧
      (r.union r').y + (r.union r').height = max (r.y + r.height) (r'.y + r'.height) := by
  have hfit := hr.edgesFit hw hh
  have hfit' := hr'.edgesFit hw hh
  obtain ⟨h1, h2, h3, h4⟩ := hr
  obtain ⟨h1', h2', h3', h4'⟩ := hr'
  unfold union
  dsimp only
  rw [hfit.right_eq, hfit.bottom_eq, hfit'.right_eq, hfit'.bottom_eq]
  rw [wrapI32_eq (by omega) (by omega), wrapI32_eq (by omega) (by omega), asU32_eq (by omega) (by omega),
    asU32_eq (by omega) (by omega)]
  refine ⟨rfl, rfl, ?_, ?_⟩ <;> omega

end DirtyRect

end Jwm.Compositor
