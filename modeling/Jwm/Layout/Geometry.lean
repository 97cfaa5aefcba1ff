/-
The arithmetic every layout shares (`core/layout.rs`): the area inside the gaps, gaps that fit, and rows and columns
shared out by the clients' factors. Client counts are far below `2 ^ 31`, so that the casts of them are not modelled. Positions are
unbounded: `factorSpans_in_i32` and `GridTiling.in_i32` show that their sums stay in `i32`.
-/
import Jwm.Core.Types
import Jwm.Data.Spans

namespace Jwm

/-! ## `f32` -/

namespace F32

/-- `as f32`. -/
def ofI32 (n : Int) : Float32 := .ofModel (.ofInt n)

/-- `as i32`: towards zero, saturating, and zero for NaN. -/
def toI32 (f : Float32) : Int := f.toModel.toInt32.toInt

/-- `f32::max`: of a NaN and a number, the number. -/
def max (a b : Float32) : Float32 := if a.toModel.isNaN then b else if a < b then b else a

/-- `f32::clamp`: a NaN stays. -/
def clamp (f low high : Float32) : Float32 :=
  if f < low then low else if high < f then high else f

end F32

namespace I32

/-- `i32::clamp`. -/
def clampTo (n low high : Int) : Int := if n < low then low else if high < n then high else n

theorem clampTo_spec {low high : Int} (h : low ≤ high) (n : Int) : low ≤ clampTo n low high ∧ clampTo n low high ≤ high := by
  unfold clampTo
  split
  · exact ⟨Int.le_refl _, h⟩
  · split <;> omega

theorem clamp_eq {n : Int} (hlow : min ≤ n) (hhigh : n ≤ max) : clamp n = n := by
  unfold clamp
  omega

theorem saturatingSub_eq {a b : Int} (ha : 0 ≤ a) (hb : 0 ≤ b) (ha' : a ≤ max) (hb' : b ≤ max) : saturatingSub a b = a - b := by
  refine clamp_eq ?_ ?_
  · unfold max at hb'
    unfold min
    omega
  · omega

end I32

namespace Layout

/-! ## Clients and results -/

structure LayoutClient (K : Type) where
  key : K
  factor : Float32
  borderW : Int

structure LayoutParams where
  screenArea : Rect
  nMaster : Nat
  mFact : Float32
  gap : Int

structure LayoutResult (K : Type) where
  key : K
  rect : Rect
deriving DecidableEq

variable {K : Type}

/-! ## Areas and gaps -/

def boundedGap (screenArea : Rect) (gap : Int) : Int :=
  let shortestSide := min (max screenArea.w 0) (max screenArea.h 0)
  I32.clampTo gap 0 (shortestSide / 2)

def usableArea (screenArea : Rect) (gap : Int) : Rect :=
  let gap := boundedGap screenArea gap
  let inset := I32.saturatingMul gap 2
  { x := I32.saturatingAdd screenArea.x gap, y := I32.saturatingAdd screenArea.y gap
    w := max (I32.saturatingSub screenArea.w inset) 1, h := max (I32.saturatingSub screenArea.h inset) 1 }

def clientRect (x y w h borderW : Int) : Rect :=
  let border2 := I32.saturatingMul (max borderW 0) 2
  { x, y, w := max (I32.saturatingSub w border2) 1, h := max (I32.saturatingSub h border2) 1 }

/-- Keep one content pixel per client where the extent permits it. -/
def fittingInnerGap (extent : Int) (count : Nat) (requested : Int) : Int :=
  if count ≤ 1 then 0
  else if I32.max < count then 0
  else
    let spare := max (I32.saturatingSub extent count) 0
    min (max requested 0) (spare / (count - 1))

/-! ## Shares -/

def distributeLength (total gap used index count : Int) (factor remainingFactor : Float32) : Int :=
  let innerGaps := I32.saturatingMul (max (I32.saturatingSub count 1) 0) (max gap 0)
  let available := max (I32.saturatingSub total innerGaps) 1
  let remaining := max (I32.saturatingSub available used) 1
  let laterCount := max (I32.saturatingSub (I32.saturatingSub count index) 1) 0
  if laterCount = 0 then remaining
  else
    let maximum := max (I32.saturatingSub remaining laterCount) 1
    let proportional :=
      if (0.001 : Float32) < remainingFactor then
        F32.toI32 (F32.ofI32 remaining * (F32.max factor 0 / remainingFactor))
      else remaining / max (I32.saturatingSub count index) 1
    I32.clampTo proportional 1 maximum

/-- The loop of a row or column: the length of each client, and where it starts. -/
def shareOut (total gap count : Int) : Int → Int → Float32 → List (LayoutClient K) → List (LayoutClient K × Span)
  | _, _, _, [] => []
  | i, used, remainingFactor, c :: rest =>
    let len := distributeLength total gap used i count c.factor remainingFactor
    (c, ⟨used + i * gap, len⟩) :: shareOut total gap count (i + 1) (used + len) (remainingFactor - F32.max c.factor 0) rest

variable (clients : List (LayoutClient K))

def totalFactor : Float32 := clients.foldl (fun sum c => sum + F32.max c.factor 0) 0

def factorSpans (extent gap : Int) : List (LayoutClient K × Span) :=
  shareOut extent (fittingInnerGap extent clients.length gap) clients.length 0 0 (totalFactor clients) clients

def pushFactorRow (x y w h gap : Int) : List (LayoutResult K) :=
  (factorSpans clients w gap).map fun (c, s) => { key := c.key, rect := clientRect (x + s.start) y s.len h c.borderW }

def pushFactorColumn (x y w h gap : Int) : List (LayoutResult K) :=
  (factorSpans clients h gap).map fun (c, s) => { key := c.key, rect := clientRect x (y + s.start) w s.len c.borderW }

def pushDeckPreviews (x y w h gap : Int) : List (LayoutResult K) :=
  let previewStep := I32.clampTo gap 6 16
  let maximumOffset := max (I32.saturatingSub (min w h) 1) 0
  clients.mapIdx fun i c =>
    let previewOffset := min (min i 5 * previewStep) maximumOffset
    { key := c.key
      rect := clientRect (x + previewOffset) (y + previewOffset) (w - previewOffset) (h - previewOffset) c.borderW }

end Layout

end Jwm
