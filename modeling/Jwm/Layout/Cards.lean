/-
Layouts that lay windows on top of each other or in mats (`calculate_monocle`, `calculate_fullscreen`,
`calculate_vstack`, `calculate_tatami`). Like the other casts of client counts, those of `calculate_vstack` are not modelled.
-/
import Jwm.Layout.Stacks
import Jwm.Layout.Grid

namespace Jwm.Layout

open F32

variable {K : Type}

/-! ## The source -/

/-- Every window fills the work area; the gap is not used. -/
def calculateMonocle (params : LayoutParams) (clients : List (LayoutClient K)) : List (LayoutResult K) :=
  let s := params.screenArea
  clients.map fun c => { key := c.key, rect := clientRect s.x s.y s.w s.h c.borderW }

def calculateFullscreen (params : LayoutParams) (clients : List (LayoutClient K)) : List (LayoutResult K) :=
  clients.map fun c => { key := c.key, rect := params.screenArea }

def vstackScale (n : Nat) : Float32 :=
  if n ≤ 5 then 1.0 else clamp (5.0 / ofI32 n).sqrt 0.35 1.0

/-- The first client is the card at the bottom of the V, the others climb its arms in turn. -/
def calculateVstack (params : LayoutParams) (clients : List (LayoutClient K)) : List (LayoutResult K) :=
  let area := params.area
  let n := clients.length
  let halfW := max (toI32 (ofI32 area.w / 2.0 * vstackScale n)) 1
  let halfH := max (toI32 (ofI32 area.h / 2.0 * vstackScale n)) 1
  let centerX := I32.saturatingAdd area.x ((area.w - halfW).tdiv 2)
  let bottomY := I32.saturatingAdd area.y (area.h - halfH)
  let maxDepth : Int := if n ≤ 1 then 1 else n / 2
  let maxStepX := (area.w - halfW).tdiv (2 * maxDepth)
  let maxStepY := toI32 (ofI32 (area.h - halfH) / (ofI32 maxDepth * 0.57735))
  let stepX := max (min maxStepX maxStepY) 0
  let stepY := toI32 (ofI32 stepX * 0.57735)
  clients.mapIdx fun i c =>
    if i = 0 then { key := c.key, rect := clientRect centerX bottomY halfW halfH c.borderW }
    else
      let depth : Int := ((i : Int) + 1) / 2
      let x := if i % 2 = 1 then I32.saturatingAdd centerX (depth * stepX) else I32.saturatingSub centerX (depth * stepX)
      { key := c.key, rect := clientRect x (I32.saturatingSub bottomY (depth * stepY)) halfW halfH c.borderW }

/-- A row of equal windows, the last of which takes what the division leaves. -/
def evenRow (x y w h gap : Int) (clients : List (LayoutClient K)) : List (LayoutResult K) :=
  let k : Int := clients.length
  let gap := fittingInnerGap w clients.length gap
  let cellW := (w - (k - 1) * gap) / k
  clients.mapIdx fun j c =>
    { key := c.key
      rect := clientRect (x + j * (cellW + gap)) y (if j = k - 1 then w - (k - 1) * (cellW + gap) else cellW) h c.borderW }

/-- Two rows, `top` windows in the first. -/
def twoRows (x y w h gap : Int) (top : Nat) (clients : List (LayoutClient K)) : List (LayoutResult K) :=
  let rowGap := fittingInnerGap h 2 gap
  let topH := (h - rowGap) / 2
  evenRow x y w topH gap (clients.take top) ++
    evenRow x (y + topH + rowGap) w (h - topH - rowGap) gap (clients.drop top)

/-- One group of mats: three over two and two over three in turn, and a row for fewer than five. -/
def tatamiGroup (area : Rect) (gap y h : Int) (g : Nat) (clients : List (LayoutClient K)) : List (LayoutResult K) :=
  if clients.length < 5 then evenRow area.x y area.w h gap clients
  else twoRows area.x y area.w h gap (if g % 2 = 0 then 3 else 2) clients

def tatamiGroups (area : Rect) (gap : Int) (clients : List (LayoutClient K)) : List (LayoutResult K) :=
  let groups := (clients.length + 4) / 5
  let groupGap := fittingInnerGap area.h groups gap
  let rowH := (area.h - ((groups : Int) - 1) * groupGap) / groups
  (List.range groups).flatMap fun g =>
    let h := if g = groups - 1 then max (area.h - g * (rowH + groupGap)) 1 else rowH
    tatamiGroup area gap (area.y + g * (rowH + groupGap)) h g ((clients.drop (5 * g)).take 5)

def calculateTatami (params : LayoutParams) (clients : List (LayoutClient K)) : List (LayoutResult K) :=
  let gap := params.innerGap
  let area := params.area
  if clients.length > 10 then calculateGrid params clients
  else
    match clients with
    | [] => []
    | [_] | [_, _] => evenRow area.x area.y area.w area.h gap clients
    | [a, b, c] =>
      let columnGap := fittingInnerGap area.w 2 gap
      let rowGap := fittingInnerGap area.h 2 gap
      let lw := (area.w - columnGap) / 2
      let rw := area.w - lw - columnGap
      let rh := (area.h - rowGap) / 2
      [{ key := a.key, rect := clientRect area.x area.y lw area.h a.borderW },
        { key := b.key, rect := clientRect (area.x + lw + columnGap) area.y rw rh b.borderW },
        { key := c.key
          rect := clientRect (area.x + lw + columnGap) (area.y + rh + rowGap) rw (area.h - rh - rowGap) c.borderW }]
    | [_, _, _, _] => twoRows area.x area.y area.w area.h gap 2 clients
    | _ => tatamiGroups area gap clients

end Jwm.Layout
