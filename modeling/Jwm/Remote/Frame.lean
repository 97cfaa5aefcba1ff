/-
Frames of the remote desktop (`remote/frame.rs`, `remote/messages.rs`, `remote/x11_capture.rs`):
images, dimension limits, damage regions and the viewer's tile snapshots.
-/
import Jwm.Data.Blit

namespace Jwm.Remote

/-! ## Images -/

/-- `image::RgbImage`: rows from top to bottom, three bytes a pixel. -/
structure RgbImage where
  width : Nat
  height : Nat
  raw : List Byte
  raw_length : raw.length = width * height * 3

namespace RgbImage

def dimensions (image : RgbImage) : Nat × Nat := (image.width, image.height)

/-- `RgbImage::new`: black. -/
def new (width height : Nat) : RgbImage := ⟨width, height, List.replicate (width * height * 3) 0, by simp⟩

def blit (image : RgbImage) (writes : List (Nat × List Byte)) : RgbImage :=
  ⟨image.width, image.height, Jwm.blit image.raw writes, by rw [length_blit, image.raw_length]⟩

theorem ext_of_raw {a b : RgbImage} (hw : a.width = b.width) (hh : a.height = b.height) (hr : a.raw = b.raw) : a = b := by
  obtain ⟨w, h, r, _⟩ := a
  obtain ⟨w', h', r', _⟩ := b
  simp only at hw hh hr
  subst hw hh hr
  rfl

end RgbImage

/-- `CapturedFrame`; sizes and epochs are of the source's integer widths. -/
structure CapturedFrame where
  geometryEpoch : Nat
  image : RgbImage
  sourceWidth : Nat
  sourceHeight : Nat
  epoch_lt : geometryEpoch < 2 ^ 64
  sourceWidth_lt : sourceWidth < 2 ^ 16
  sourceHeight_lt : sourceHeight < 2 ^ 16

/-! ## Limits -/

def maxDimension : Nat := 16384
def maxPixels : Nat := 64 * 1024 * 1024

def validateDimensions (width height : Nat) : Except String Unit :=
  if width = 0 || height = 0 then .error "remote frame has an empty dimension"
  else if width > maxDimension || height > maxDimension then .error "remote frame dimension exceeds the safety limit"
  else if width * height > maxPixels then .error "remote frame pixel count exceeds the safety limit"
  else .ok ()

/-- `messages::FrameLimits`. -/
structure FrameLimits where
  maxWidth : Nat
  maxHeight : Nat
  maxPixels : Nat
deriving DecidableEq

namespace FrameLimits

def default : FrameLimits := ⟨maxDimension, maxDimension, Remote.maxPixels⟩

def validate (l : FrameLimits) : Except String Unit :=
  if l.maxWidth = 0 || l.maxHeight = 0 || l.maxPixels = 0 || l.maxWidth > maxDimension || l.maxHeight > maxDimension ||
      l.maxPixels > Remote.maxPixels then .error "invalid decoded frame limits"
  else .ok ()

def validateDimensions (l : FrameLimits) (width height : Nat) : Except String Unit :=
  match l.validate with
  | .error e => .error e
  | .ok () =>
    if width = 0 || height = 0 || width > l.maxWidth || height > l.maxHeight || width * height > l.maxPixels then
      .error "frame exceeds negotiated decoded frame limits"
    else .ok ()

end FrameLimits

theorem validateDimensions_ok {w h : Nat} (hv : validateDimensions w h = .ok ()) :
    0 < w ∧ 0 < h ∧ w ≤ maxDimension ∧ h ≤ maxDimension ∧ w * h ≤ maxPixels := by
  unfold validateDimensions at hv
  split at hv
  · cases hv
  · rename_i h0
    split at hv
    · cases hv
    · rename_i h1
      split at hv
      · cases hv
      · rename_i h2
        simp only [Bool.or_eq_true, decide_eq_true_eq, not_or] at h0 h1
        omega

/-! ## Damage -/

structure DamageRect where
  x : Nat
  y : Nat
  w : Nat
  h : Nat
deriving DecidableEq

def maxDamageRegions : Nat := 8

/-- The rectangles in use, in storage order, and whether they were merged into one for good. -/
structure DamageRegions where
  rects : List DamageRect
  collapsed : Bool
deriving DecidableEq

namespace DamageRegions

def default : DamageRegions := ⟨[], false⟩

def union (a b : DamageRect) : DamageRect :=
  let x := min a.x b.x
  let y := min a.y b.y
  ⟨x, y, max (a.x + a.w) (b.x + b.w) - x, max (a.y + a.h) (b.y + b.h) - y⟩

def touches (rect other : DamageRect) : Bool :=
  rect.x ≤ other.x + other.w && other.x ≤ rect.x + rect.w && rect.y ≤ other.y + other.h && other.y ≤ rect.y + rect.h

def swapRemove (rects : List DamageRect) (index : Nat) : List DamageRect :=
  (rects.set index (rects.getLastD ⟨0, 0, 0, 0⟩)).dropLast

/-- The merge loop of `add`: it restarts after each union, which can touch an earlier region too. -/
def absorb (rect : DamageRect) (rects : List DamageRect) (index : Nat) : DamageRect × List DamageRect :=
  if h : index < rects.length then
    let other := rects[index]
    if touches rect other then absorb (union rect other) (swapRemove rects index) 0
    else absorb rect rects (index + 1)
  else (rect, rects)
termination_by (rects.length, rects.length - index)
decreasing_by
  · exact Prod.Lex.left _ _ (by simp only [swapRemove, List.length_dropLast, List.length_set]; omega)
  · exact Prod.Lex.right _ (by omega)

def add (r : DamageRegions) (rect : DamageRect) (dimensions : Nat × Nat) : DamageRegions :=
  if rect.w = 0 || rect.h = 0 then r
  else
    let merged : DamageRect × List DamageRect × Bool :=
      if r.collapsed then (union (r.rects.headD ⟨0, 0, 0, 0⟩) rect, [], true)
      else
        let (rect, rects) := absorb rect r.rects 0
        if rects.length = maxDamageRegions then (rects.foldl union rect, [], true)
        else (rect, rects, false)
    let rects := merged.2.1 ++ [merged.1]
    if (rects.map fun r => r.w * r.h).sum * 5 ≥ dimensions.1 * dimensions.2 * 3 then
      ⟨[⟨0, 0, dimensions.1, dimensions.2⟩], true⟩
    else ⟨rects, merged.2.2⟩

end DamageRegions

structure FrameDamage where
  baseSequence : Nat
  regions : DamageRegions
deriving DecidableEq

/-! ## Snapshots -/

/-- A tile's shared pixels. `version` stands for the identity of the shared buffer: two snapshots
share a tile exactly when its version is the same in both. -/
structure SharedTile where
  version : Nat
  bytes : List Byte

structure TileSnapshot where
  width : Nat
  height : Nat
  tile : Nat
  pixels : List SharedTile

/-- `usize::div_ceil`. -/
def divCeil (a b : Nat) : Nat := (a + b - 1) / b

/-- `TileSnapshot::update`: marked tiles are rebuilt from the canvas, under the identity `version`, the others are shared
with a compatible predecessor. -/
def TileSnapshot.update (canvas : RgbImage) (previous : Option TileSnapshot) (bitmap : List Byte) (tile version : Nat) :
    TileSnapshot :=
  let columns := divCeil canvas.width tile
  let count := columns * divCeil canvas.height tile
  let rebuild index : SharedTile :=
    let x := (index % columns) * tile
    let y := (index / columns) * tile
    let w := min tile (canvas.width - x)
    let h := min tile (canvas.height - y)
    ⟨version, (List.range' y h).flatMap fun row =>
      slice canvas.raw ((row * canvas.width + x) * 3) ((row * canvas.width + x) * 3 + w * 3)⟩
  match previous.filter fun p => p.width = canvas.width && p.height = canvas.height && p.tile = tile with
  | some p =>
    if bitmap.all (· == 0) then p
    else
      { width := canvas.width, height := canvas.height, tile := tile
        pixels := p.pixels.mapIdx fun index slot => if !bitSet bitmap index then slot else rebuild index }
  | none =>
    { width := canvas.width, height := canvas.height, tile := tile, pixels := (List.range count).map rebuild }

end Jwm.Remote
