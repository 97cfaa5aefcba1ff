/-
The viewer's side of dirty-tile delta coding (`remote/tile.rs`): the decoder checks a tile frame
against its limits and its canvas, and scatters the atlas cells back to the tiles the bitmap marks.
-/
import Jwm.Remote.TileEncoder

namespace Jwm.Remote

/-! ## The wire header -/

structure TileHeader where
  geometryEpoch : Nat
  sequence : Nat
  sourceWidth : Nat
  sourceHeight : Nat
  encodedWidth : Nat
  encodedHeight : Nat
  tileLog2 : Nat
  keyframe : Bool
  atlasColumns : Nat
  dirtyTiles : Nat
  totalTiles : Nat
deriving DecidableEq

namespace TileHeader

def parse (payload : List Byte) : Except String TileHeader := do
  rejectIf (payload.length < tileHeaderLen) "tile frame is shorter than its header"
  let sequence := fromBeBytes (slice payload 0 8)
  let sourceWidth := fromBeBytes (slice payload 8 10)
  let sourceHeight := fromBeBytes (slice payload 10 12)
  let encodedWidth := fromBeBytes (slice payload 12 14)
  let encodedHeight := fromBeBytes (slice payload 14 16)
  let tileLog2 := (payload.getD 16 0).toNat
  let flags := payload.getD 17 0
  let atlasColumns := fromBeBytes (slice payload 18 20)
  let dirtyTiles := fromBeBytes (slice payload 20 24)
  let geometryEpoch := fromBeBytes (slice payload 24 32)
  validateDimensions sourceWidth sourceHeight
  validateDimensions encodedWidth encodedHeight
  rejectIf (tileLog2 < minTileLog2 || maxTileLog2 < tileLog2) "tile frame declares an unsupported tile size"
  rejectIf (flags &&& ~~~knownFlags ≠ 0) "tile frame sets unknown flags"
  let totalTiles ← gridTiles encodedWidth encodedHeight (1 <<< tileLog2)
  rejectIf (dirtyTiles > totalTiles) "tile frame declares more dirty tiles than exist"
  return {
    geometryEpoch, sequence, sourceWidth, sourceHeight, encodedWidth, encodedHeight, tileLog2
    keyframe := flags &&& flagKeyframe != 0
    atlasColumns, dirtyTiles, totalTiles }

end TileHeader

/-! ## The decoder -/

/-- What `decode_into` hands to the viewer. -/
structure DecodedFrame where
  sequence : Nat
  sourceWidth : Nat
  sourceHeight : Nat
  snapshot : TileSnapshot
  damage : Option FrameDamage
  geometryEpoch : Nat

/-- `version` numbers the snapshots taken, so that each rebuilt tile has an identity of its own. -/
structure TileDecoder where
  frameLimits : FrameLimits
  geometryEpoch : Nat
  snapshot : Option TileSnapshot
  lastSequence : Option Nat
  canvas : Option RgbImage
  source : Nat × Nat
  atlas : List Byte
  version : Nat

/-- Where `scatter_atlas` copies from and to: the marked tiles in raster order take the cells in turn. -/
def scatterWrites (width height : Nat) (atlas bitmap : List Byte) (totalTiles tile columns atlasWidth : Nat) :
    List (Nat × List Byte) :=
  let gridW := divCeil width tile
  let atlasStride := atlasWidth * 3
  ((List.range totalTiles).filter (bitSet bitmap)).zipIdx.flatMap fun (index, slot) =>
    let (x0, y0, x1, y1) := tileBounds index gridW tile width height
    let bytes := (x1 - x0) * 3
    let cellX := (slot % columns) * tile * 3
    let cellY := (slot / columns) * tile
    (List.range' y0 (y1 - y0)).map fun y =>
      let source := (cellY + (y - y0)) * atlasStride + cellX
      (y * (width * 3) + x0 * 3, slice atlas source (source + bytes))

def scatterAtlas (canvas : RgbImage) (atlas bitmap : List Byte) (totalTiles tile columns atlasWidth : Nat) : RgbImage :=
  canvas.blit (scatterWrites canvas.width canvas.height atlas bitmap totalTiles tile columns atlasWidth)

def dirtyRegions (bitmap : List Byte) (width height tileLog2 : Nat) : DamageRegions :=
  let tile := 1 <<< tileLog2
  let gridW := divCeil width tile
  let total := gridW * divCeil height tile
  ((List.range total).filter (bitSet bitmap)).foldl (fun regions index =>
    let (x0, y0, x1, y1) := tileBounds index gridW tile width height
    regions.add ⟨x0, y0, x1 - x0, y1 - y0⟩ (width, height)) .default

/-- `decode_atlas`: the atlas buffer it leaves, and its result. -/
def decodeAtlas (coder : AtlasCoder) (atlas body : List Byte) (atlasWidth atlasHeight payloadLen : Nat) :
    List Byte × Except String Unit :=
  match coder.new body with
  | .error error => (atlas, .error error)
  | .ok info =>
    if (info.width, info.height) ≠ (atlasWidth, atlasHeight) then
      (atlas, .error "tile atlas JPEG dimensions do not match the authenticated header")
    else
      let expectedLen := atlasWidth * atlasHeight * 3
      match coder.setLimits body atlasWidth atlasHeight (expectedLen + payloadLen) with
      | .error error => (atlas, .error error)
      | .ok () =>
        if info.rgb8 then
          if info.totalBytes ≠ expectedLen then (atlas, .error "tile atlas byte length does not match its dimensions")
          else
            match coder.readImage body with
            | .error error => ([], .error error)
            | .ok pixels => (pixels, .ok ())
        else
          match coder.intoRgb8 body with
          | .error error => (atlas, .error error)
          | .ok image =>
            if image.dimensions ≠ (atlasWidth, atlasHeight) then
              (atlas, .error "tile atlas JPEG dimensions do not match the authenticated header")
            else (image.raw, .ok ())

namespace TileDecoder

def default : TileDecoder where
  frameLimits := .default
  geometryEpoch := 0
  snapshot := none
  lastSequence := none
  canvas := none
  source := (0, 0)
  atlas := []
  version := 0

def withFrameLimits (frameLimits : FrameLimits) : Except String TileDecoder := do
  frameLimits.validate
  return { default with frameLimits := frameLimits }

def bitmapOf (header : TileHeader) (payload : List Byte) : List Byte :=
  slice payload tileHeaderLen (tileHeaderLen + bitmapLen header.totalTiles)

/-- The checks of `decode_into` that come before any change of the decoder. -/
def accept (d : TileDecoder) (payload : List Byte) : Except String TileHeader := do
  let header ← TileHeader.parse payload
  d.frameLimits.validateDimensions header.encodedWidth header.encodedHeight
  rejectIf (header.geometryEpoch < d.geometryEpoch) "video geometry epoch moved backwards"
  let bodyStart := tileHeaderLen + bitmapLen header.totalTiles
  rejectIf (payload.length < bodyStart) "tile frame is missing its dirty bitmap"
  rejectIf (((bitmapOf header payload).map countOnes).sum ≠ header.dirtyTiles)
    "tile frame bitmap does not match its declared dirty count"
  rejectIf (header.keyframe ∧ header.dirtyTiles ≠ header.totalTiles) "tile keyframe does not carry every tile"
  rejectIf (!header.keyframe ∧ (d.geometryEpoch ≠ header.geometryEpoch ∨ d.source ≠ (header.sourceWidth, header.sourceHeight)))
    "tile delta frame does not match the current source geometry"
  return header

/-- Take over the geometry of an admitted frame; a keyframe may replace the canvas. -/
def adopt (d : TileDecoder) (header : TileHeader) : TileDecoder :=
  let canvas :=
    if header.keyframe then
      match d.canvas with
      | some canvas =>
        if canvas.dimensions = (header.encodedWidth, header.encodedHeight) then some canvas
        else some (RgbImage.new header.encodedWidth header.encodedHeight)
      | none => some (RgbImage.new header.encodedWidth header.encodedHeight)
    else d.canvas
  let moved := header.geometryEpoch ≠ d.geometryEpoch
  { d with
    canvas := canvas
    snapshot := if moved then none else d.snapshot
    lastSequence := if moved then none else d.lastSequence
    geometryEpoch := header.geometryEpoch
    source := (header.sourceWidth, header.sourceHeight) }

def atlasSize (header : TileHeader) : Except String (Nat × Nat) := do
  let tile := 1 <<< header.tileLog2
  let columns := header.atlasColumns
  rejectIf (columns = 0) "tile frame declares no atlas columns"
  rejectIf (columns > header.dirtyTiles) "tile frame atlas is wider than its dirty tile count"
  let rows := divCeil header.dirtyTiles columns
  rejectIf (columns * tile ≥ 2 ^ 16) "tile atlas width exceeds protocol range"
  rejectIf (rows * tile ≥ 2 ^ 16) "tile atlas height exceeds protocol range"
  validateDimensions (columns * tile) (rows * tile)
  return (columns * tile, rows * tile)

variable (coder : AtlasCoder)

def draw (d : TileDecoder) (header : TileHeader) (payload : List Byte) (canvas : RgbImage) :
    TileDecoder × Except String RgbImage :=
  if header.dirtyTiles = 0 then (d, .ok canvas)
  else
    match atlasSize header with
    | .error error => (d, .error error)
    | .ok (atlasWidth, atlasHeight) =>
      let bodyStart := tileHeaderLen + bitmapLen header.totalTiles
      if payload.length ≤ bodyStart then (d, .error "tile frame is missing its atlas body")
      else
        match decodeAtlas coder d.atlas (payload.drop bodyStart) atlasWidth atlasHeight payload.length with
        | (atlas, .error error) => ({ d with atlas := atlas }, .error error)
        | (atlas, .ok ()) =>
          let canvas := scatterAtlas canvas atlas (bitmapOf header payload) header.totalTiles (1 <<< header.tileLog2)
            header.atlasColumns atlasWidth
          ({ d with atlas := atlas, canvas := some canvas }, .ok canvas)

def present (d : TileDecoder) (header : TileHeader) (payload : List Byte) (canvas : RgbImage) : TileDecoder × DecodedFrame :=
  let bitmap := bitmapOf header payload
  let damage := if header.keyframe then none
    else d.lastSequence.map fun baseSequence =>
      { baseSequence := baseSequence
        regions := dirtyRegions bitmap header.encodedWidth header.encodedHeight header.tileLog2 }
  let snapshot := TileSnapshot.update canvas d.snapshot bitmap (1 <<< header.tileLog2) d.version
  ({ d with snapshot := some snapshot, lastSequence := some header.sequence, version := d.version + 1 },
    { sequence := header.sequence, sourceWidth := header.sourceWidth, sourceHeight := header.sourceHeight
      snapshot := snapshot, damage := damage, geometryEpoch := header.geometryEpoch })

def decodeInto (d : TileDecoder) (payload : List Byte) : TileDecoder × Except String DecodedFrame :=
  match d.accept payload with
  | .error error => (d, .error error)
  | .ok header =>
    let d := d.adopt header
    match d.canvas.filter fun canvas => canvas.dimensions = (header.encodedWidth, header.encodedHeight) with
    | none => (d, .error "tile delta frame does not match the current viewer canvas")
    | some canvas =>
      match d.draw coder header payload canvas with
      | (d, .error error) => (d, .error error)
      | (d, .ok canvas) =>
        let (d, frame) := d.present header payload canvas
        (d, .ok frame)

end TileDecoder

end Jwm.Remote
