/-
The host's side of dirty-tile delta coding (`remote/tile.rs`): the encoder ships the tiles that
differ from its model of the viewer's canvas, packed into one atlas image. A method that mutates the
encoder and can fail returns the encoder it leaves behind together with its result. The JPEG coder
of the atlas is a parameter.
-/
import Jwm.Data.Check
import Jwm.Data.Vec
import Jwm.Remote.Frame
import Mathlib.Data.Nat.Sqrt

namespace Jwm.Remote

/-! ## Constants and grid geometry -/

def tileHeaderLen : Nat := 32
def defaultTileLog2 : Nat := 4
def minTileLog2 : Nat := 3
def maxTileLog2 : Nat := 7
def defaultTileTolerance : Nat := 4
def flagKeyframe : Byte := 1
def knownFlags : Byte := flagKeyframe

/-- `source_wire::MAX_SOURCE_INNER_PAYLOAD_LEN`. -/
def maxSourceInnerPayloadLen : Nat := 32 * 1024 * 1024 - 8 - 1

def maxAtlasColumns (tile : Nat) : Nat := max (maxDimension / tile) 1

/-- Left, top, right and bottom edge of a tile, cut at the image's edges. -/
def tileBounds (index gridW tile width height : Nat) : Nat × Nat × Nat × Nat :=
  let ty := index / gridW
  let tx := index % gridW
  let x0 := tx * tile
  let y0 := ty * tile
  (x0, y0, min (x0 + tile) width, min (y0 + tile) height)

def bitmapLen (totalTiles : Nat) : Nat := divCeil totalTiles 8

def trimBitmapTail (bitmap : List Byte) (totalTiles : Nat) : List Byte :=
  let remainder := totalTiles % 8
  if remainder ≠ 0 then bitmap.modify (bitmap.length - 1) fun _ => 1#8 <<< remainder - 1 else bitmap

def atlasColumns (dirty tile : Nat) : Nat :=
  let limit := maxAtlasColumns tile
  let widestForRows := max (divCeil dirty limit) 1
  min (min (max (max dirty.sqrt 1) widestForRows) limit) (max dirty 1)

/-- `grid_w.checked_mul(grid_h)` as a `u32`. -/
def gridTiles (width height tile : Nat) : Except String Nat :=
  let tiles := divCeil width tile * divCeil height tile
  if tiles < 2 ^ 32 then .ok tiles else .error "tile grid exceeds protocol range"

/-- `u8::abs_diff`. -/
def absDiff (a b : Byte) : Nat := if a.toNat < b.toNat then b.toNat - a.toNat else a.toNat - b.toNat

/-! ## The atlas coder -/

/-- What `JpegDecoder::new` reads off the head of an image. -/
structure AtlasInfo where
  width : Nat
  height : Nat
  /-- `color_type() == Rgb8`. -/
  rgb8 : Bool
  totalBytes : Nat
deriving DecidableEq

/-- The JPEG coder. -/
structure AtlasCoder where
  /-- All bytes `JpegEncoder::encode` writes for an RGB image. -/
  encode (quality width height : Nat) (pixels : List Byte) : Except String (List Byte)
  /-- `JpegDecoder::new`. -/
  new (body : List Byte) : Except String AtlasInfo
  /-- `set_limits` with a largest width, height and allocation. -/
  setLimits (body : List Byte) (maxWidth maxHeight maxAlloc : Nat) : Except String Unit
  /-- `read_image` into a buffer of `total_bytes`. -/
  readImage (body : List Byte) : Except String (List Byte)
  /-- `DynamicImage::from_decoder(..).into_rgb8()`. -/
  intoRgb8 (body : List Byte) : Except String RgbImage

/-! ## The encoder -/

inductive TileEncodeRequest where
  | delta
  | keepalive
  | keyframe
deriving DecidableEq

structure TilePlan where
  keyframe : Bool
  dirtyTiles : Nat
  totalTiles : Nat
  emit : Bool
deriving DecidableEq

structure PlannedFrame where
  geometryEpoch : Nat
  keyframe : Bool
  refinementCursor : Option Nat
  dirtyTiles : Nat
  encoded : Nat × Nat
  source : Nat × Nat
  columns : Nat
  atlas : Option (Nat × Nat × Nat)
deriving DecidableEq

structure DetectedFrame where
  geometryEpoch : Nat
  keyframe : Bool
  request : TileEncodeRequest
  encoded : Nat × Nat
  source : Nat × Nat
  totalTiles : Nat
deriving DecidableEq

structure TileEncoder where
  geometryEpoch : Nat
  tileLog2 : Nat
  tolerance : Nat
  reference : Option RgbImage
  source : Nat × Nat
  qualities : List Nat
  pendingQuality : Nat
  refinementCursor : Nat
  pendingRefinementCursor : Option Nat
  grid : Nat × Nat
  bitmap : List Byte
  dirty : List Nat
  atlas : List Byte
  pending : Bool
  planned : Option PlannedFrame
  detected : Option DetectedFrame
  detectedDirty : List Nat

/-- Bounded round-robin selection of the tiles sent below the target quality, and the next cursor. -/
def refinementTiles (qualities : List Nat) (target limit cursor : Nat) : List Nat × Nat :=
  if qualities.isEmpty || limit = 0 then ([], 0)
  else
    let start := cursor % qualities.length
    let selected := ((List.range' start (qualities.length - start) ++ List.range start).filter
      fun index => qualities.getD index 0 < target).take limit
    let next := (selected.getLast?.map fun last => (last + 1) % qualities.length).getD start
    (selected.mergeSort, next)

/-- The row loop of `collect_dirty`: does some row of the tile differ by more than the tolerance? -/
def tileChanged (current reference : RgbImage) (gridW tile tolerance index : Nat) : Bool :=
  let stride := current.width * 3
  let (x0, y0, x1, y1) := tileBounds index gridW tile current.width current.height
  let bytes := (x1 - x0) * 3
  (List.range' y0 (y1 - y0)).any fun y =>
    let offset := y * stride + x0 * 3
    let a := slice current.raw offset (offset + bytes)
    let b := slice reference.raw offset (offset + bytes)
    a != b && (tolerance == 0 || (a.zip b).any fun (left, right) => absDiff left right > tolerance)

def collectDirty (current reference : RgbImage) (grid : Nat × Nat) (tile tolerance : Nat) (bitmap : List Byte)
    (dirty : List Nat) : List Byte × List Nat :=
  (List.range grid.2).foldl (fun acc ty => (List.range grid.1).foldl (fun acc tx =>
    let index := ty * grid.1 + tx
    if tileChanged current reference grid.1 tile tolerance index then (markBit acc.1 index, acc.2 ++ [index])
    else acc) acc) (bitmap, dirty)

def addRepairs (indices : List Nat) (bitmap : List Byte) (dirty : List Nat) : List Byte × List Nat :=
  indices.foldl (fun acc index => if bitSet acc.1 index then acc else (markBit acc.1 index, acc.2 ++ [index])) (bitmap, dirty)

namespace TileEncoder

def withSettings (tileLog2 tolerance : Nat) : TileEncoder where
  geometryEpoch := 0
  tileLog2 := max minTileLog2 (min tileLog2 maxTileLog2)
  tolerance := tolerance
  reference := none
  source := (0, 0)
  qualities := []
  pendingQuality := 0
  refinementCursor := 0
  pendingRefinementCursor := none
  grid := (0, 0)
  bitmap := []
  dirty := []
  atlas := []
  pending := false
  planned := none
  detected := none
  detectedDirty := []

def new : TileEncoder := withSettings defaultTileLog2 defaultTileTolerance

def tile (e : TileEncoder) : Nat := 1 <<< e.tileLog2

def needsKeyframe (e : TileEncoder) (frame : CapturedFrame) : Bool :=
  match e.reference with
  | none => true
  | some reference =>
    e.geometryEpoch != frame.geometryEpoch || reference.dimensions != frame.image.dimensions ||
      e.source != (frame.sourceWidth, frame.sourceHeight)

/-- The checks of `detect`: the number of tiles in the frame's grid. -/
def detectTiles (tile : Nat) (frame : CapturedFrame) : Except String Nat := do
  rejectIf (frame.image.width ≥ 2 ^ 16) "encoded frame width exceeds protocol range"
  rejectIf (frame.image.height ≥ 2 ^ 16) "encoded frame height exceeds protocol range"
  validateDimensions frame.sourceWidth frame.sourceHeight
  validateDimensions frame.image.width frame.image.height
  gridTiles frame.image.width frame.image.height tile

/-- The bitmap and the list of the tiles to send: all of them in a keyframe, else the changed ones. -/
def damage (e : TileEncoder) (frame : CapturedFrame) (keyframe : Bool) (totalTiles : Nat) : List Byte × List Nat :=
  let cleared := List.replicate (bitmapLen totalTiles) 0
  match e.reference, keyframe with
  | some reference, false =>
    let grid := (divCeil frame.image.width e.tile, divCeil frame.image.height e.tile)
    collectDirty frame.image reference grid e.tile e.tolerance cleared []
  | _, _ => (trimBitmapTail (cleared.map fun _ => 0xff) totalTiles, List.range totalTiles)

def sendsKeyframe (e : TileEncoder) (frame : CapturedFrame) (request : TileEncodeRequest) : Bool :=
  request == .keyframe || e.needsKeyframe frame

def detect (e : TileEncoder) (frame : CapturedFrame) (request : TileEncodeRequest) : TileEncoder × Except String Unit :=
  match detectTiles e.tile frame with
  | .error error =>
    ({ e with detected := none, planned := none, pending := false, pendingRefinementCursor := none }, .error error)
  | .ok totalTiles =>
    let keyframe := e.sendsKeyframe frame request
    let (bitmap, dirty) := e.damage frame keyframe totalTiles
    let detected : DetectedFrame :=
      { geometryEpoch := frame.geometryEpoch, keyframe := keyframe, request := request
        encoded := frame.image.dimensions, source := (frame.sourceWidth, frame.sourceHeight), totalTiles := totalTiles }
    ({ e with
        planned := none
        pending := false
        pendingRefinementCursor := none
        grid := (divCeil frame.image.width e.tile, divCeil frame.image.height e.tile)
        bitmap := bitmap
        dirty := dirty
        detectedDirty := dirty
        detected := some detected }, .ok ())

/-- The atlas of a plan: its columns, and its rows, width and height unless nothing is dirty. -/
def planAtlas (keyframe : Bool) (dirtyTiles gridW tile : Nat) : Except String (Nat × Option (Nat × Nat × Nat)) :=
  if dirtyTiles = 0 then .ok (0, none)
  else do
    let columns := if keyframe then gridW else atlasColumns dirtyTiles tile
    let rows := divCeil dirtyTiles columns
    rejectIf (columns * tile > maxDimension) "tile atlas width exceeds the safety limit"
    rejectIf (rows * tile > maxDimension) "tile atlas height exceeds the safety limit"
    validateDimensions (columns * tile) (rows * tile)
    return (columns, some (rows, columns * tile, rows * tile))

/-- The cursor to commit, the bitmap and the dirty list: the detected damage, with repairs in a delta. -/
def selection (e : TileEncoder) (keyframe : Bool) (refinement : Option (Nat × Nat)) : Option Nat × List Byte × List Nat :=
  let bitmap := e.detectedDirty.foldl markBit (e.bitmap.map fun _ => 0)
  match keyframe, refinement with
  | false, some (quality, limit) =>
    let (indices, next) := refinementTiles e.qualities quality limit e.refinementCursor
    let (bitmap, dirty) := addRepairs indices bitmap e.detectedDirty
    -- the viewer consumes atlas cells in raster order
    (if indices.isEmpty then none else some next, bitmap, dirty.mergeSort)
  | false, none => (none, bitmap, e.detectedDirty)
  | true, _ => (some 0, bitmap, e.detectedDirty)

def selectRefinement (e : TileEncoder) (refinement : Option (Nat × Nat)) : TileEncoder × Except String TilePlan :=
  match e.detected with
  | none => (e, .error "tile refinement selected without detection")
  | some detected =>
    let keyframe := detected.keyframe
    let (refinementCursor, bitmap, dirty) := e.selection keyframe refinement
    let e := { e with planned := none, bitmap := bitmap, dirty := dirty }
    if dirty.length ≥ 2 ^ 32 then (e, .error "dirty tile count exceeds protocol range")
    else
      let emit := dirty.length > 0 || detected.request == .keepalive
      let plan : TilePlan :=
        { keyframe := keyframe, dirtyTiles := dirty.length, totalTiles := detected.totalTiles, emit := emit }
      if !emit then (e, .ok plan)
      else
        match planAtlas keyframe dirty.length e.grid.1 e.tile with
        | .error error => (e, .error error)
        | .ok (columns, atlas) =>
          let planned : PlannedFrame :=
            { geometryEpoch := detected.geometryEpoch, keyframe := keyframe, refinementCursor := refinementCursor
              dirtyTiles := dirty.length, encoded := detected.encoded, source := detected.source
              columns := columns, atlas := atlas }
          ({ e with planned := some planned }, .ok plan)

def plan (e : TileEncoder) (frame : CapturedFrame) (request : TileEncodeRequest) : TileEncoder × Except String TilePlan :=
  match e.detect frame request with
  | (e, .error error) => (e, .error error)
  | (e, .ok ()) => e.selectRefinement none

/-- The cell row `y` of one packed tile: its pixels, the last one repeated across the padding. -/
def cellRow (current : RgbImage) (bounds : Nat × Nat × Nat × Nat) (tile y : Nat) : List Byte :=
  let (x0, y0, x1, y1) := bounds
  let bytes := (x1 - x0) * 3
  let sourceY := y0 + min y (y1 - y0 - 1)
  let offset := sourceY * (current.width * 3) + x0 * 3
  let filled := slice current.raw offset (offset + bytes)
  let padding := if filled.length < 3 then []
    else (List.replicate ((tile * 3 - bytes) / 3) (filled.drop (filled.length - 3))).flatten
  filled ++ padding

/-- `pack_atlas`: the dirty tiles in a grid of `columns`, one cell each, in order. -/
def packAtlas (e : TileEncoder) (current : RgbImage) (columns rows : Nat) : List Byte :=
  let tile := e.tile
  let atlasStride := columns * tile * 3
  let writes := e.dirty.zipIdx.flatMap fun (index, slot) =>
    let bounds := tileBounds index e.grid.1 tile current.width current.height
    let cellX := (slot % columns) * tile * 3
    let cellY := (slot / columns) * tile
    (List.range tile).map fun y => ((cellY + y) * atlasStride + cellX, cellRow current bounds tile y)
  blit (List.replicate (atlasStride * rows * tile) 0) writes

/-- The fixed header `encode_inner` writes. -/
def wireHeader (tileLog2 : Nat) (planned : PlannedFrame) (sequence : Nat) (frame : CapturedFrame) : List Byte :=
  toBeBytes 8 sequence ++ toBeBytes 2 frame.sourceWidth ++ toBeBytes 2 frame.sourceHeight ++
    toBeBytes 2 planned.encoded.1 ++ toBeBytes 2 planned.encoded.2 ++ [BitVec.ofNat 8 tileLog2] ++
    [if planned.keyframe then flagKeyframe else 0] ++ toBeBytes 2 planned.columns ++ toBeBytes 4 planned.dirtyTiles ++
    toBeBytes 8 frame.geometryEpoch

/-- `u16::try_from(n).unwrap_or(0)`. -/
def u16OrZero (n : Nat) : Nat := if n < 2 ^ 16 then n else 0

/-- `BoundedPayloadWriter` fed with everything the coder writes. -/
def appendBounded (payload body : List Byte) : Except String (List Byte) :=
  if payload.length + body.length > maxSourceInnerPayloadLen then
    .error s!"encoded JPEG frame exceeds protocol limit of {maxSourceInnerPayloadLen} bytes"
  else .ok (payload ++ body)

variable (coder : AtlasCoder)

def encodeInner (e : TileEncoder) (sequence : Nat) (frame : CapturedFrame) (quality : Nat) :
    TileEncoder × Except String (List Byte) :=
  match e.planned with
  | none => (e, .error "tile frame was encoded without a plan")
  | some planned =>
    if planned.geometryEpoch ≠ frame.geometryEpoch ∨
        planned.encoded ≠ (u16OrZero frame.image.width, u16OrZero frame.image.height) ∨
        planned.source ≠ (frame.sourceWidth, frame.sourceHeight) then
      (e, .error "tile frame does not match its plan")
    else if planned.columns ≥ 2 ^ 16 then (e, .error "tile atlas column count exceeds protocol range")
    else
      let payload := wireHeader e.tileLog2 planned sequence frame ++ e.bitmap
      let quality := max 1 (min quality 100)
      let finish (e : TileEncoder) (payload : List Byte) : TileEncoder × Except String (List Byte) :=
        ({ e with pending := true, pendingQuality := quality, pendingRefinementCursor := planned.refinementCursor
                  planned := none }, .ok payload)
      match planned.atlas with
      | none => finish e payload
      | some (rows, atlasWidth, atlasHeight) =>
        let e := { e with atlas := e.packAtlas frame.image planned.columns rows }
        match coder.encode quality atlasWidth atlasHeight e.atlas with
        | .error error => (e, .error error)
        | .ok body =>
          match appendBounded payload body with
          | .error error => (e, .error error)
          | .ok payload => finish e payload

/-- `encode_into`: a failed encode drops the plan. -/
def encodeInto (e : TileEncoder) (sequence : Nat) (frame : CapturedFrame) (quality : Nat) :
    TileEncoder × Except String (List Byte) :=
  match ({ e with detected := none } : TileEncoder).encodeInner coder sequence frame quality with
  | (e, .ok payload) => (e, .ok payload)
  | (e, .error error) => ({ e with pending := false, planned := none }, .error error)

/-- The rows of the listed tiles, copied from the image to their own places. -/
def tileWrites (image : RgbImage) (gridW tile : Nat) (dirty : List Nat) : List (Nat × List Byte) :=
  dirty.flatMap fun index =>
    let (x0, y0, x1, y1) := tileBounds index gridW tile image.width image.height
    let bytes := (x1 - x0) * 3
    (List.range' y0 (y1 - y0)).map fun y =>
      let offset := y * (image.width * 3) + x0 * 3
      (offset, slice image.raw offset (offset + bytes))

def commit (e : TileEncoder) (frame : CapturedFrame) : TileEncoder :=
  if !e.pending then e
  else
    let qualities := e.dirty.foldl (fun qualities index => qualities.set index e.pendingQuality)
      (resize e.qualities (e.grid.1 * e.grid.2) 0)
    let reference :=
      match e.reference with
      | some reference =>
        if reference.dimensions = frame.image.dimensions then
          reference.blit (tileWrites frame.image e.grid.1 e.tile e.dirty)
        else frame.image
      | none => frame.image
    { e with
      pending := false
      pendingRefinementCursor := none
      refinementCursor := e.pendingRefinementCursor.getD e.refinementCursor
      source := (frame.sourceWidth, frame.sourceHeight)
      geometryEpoch := frame.geometryEpoch
      qualities := qualities
      reference := some reference }

def discard (e : TileEncoder) : TileEncoder := { e with detected := none, pending := false, planned := none }

end TileEncoder

end Jwm.Remote
