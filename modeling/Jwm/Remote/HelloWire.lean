/-
Hello negotiation (`remote/messages.rs`): the stream profile, the hellos of the viewer and the host,
and the checks across flags, contents and limits that say the same thing twice.
-/
import Jwm.Remote.Frame
import Jwm.Remote.KeymapTable

namespace Jwm.Remote

/-! ## Constants -/

/-- `b"JWMREM01"`. -/
def applicationMagic : List Byte := [0x4a, 0x57, 0x4d, 0x52, 0x45, 0x4d, 0x30, 0x31]
def applicationVersion : Nat := 12
def helloPrefixLen : Nat := 11
def streamCapabilitiesLen : Nat := 25
def serverHelloLen : Nat := helloPrefixLen + streamCapabilitiesLen
def clientHelloHeaderLen : Nat := serverHelloLen + 4
def maxClientHelloLen : Nat := clientHelloHeaderLen + maxEncodedKeymapLen
def flagPointer : Byte := 1
def flagKeyboard : Byte := 2
def flagClipboard : Byte := 4
def flagClipboardFiles : Byte := 8
def inputFlags : Byte := flagPointer ||| flagKeyboard
def knownHelloFlags : Byte := inputFlags ||| flagClipboard ||| flagClipboardFiles

/-! ## The stream profile -/

/-- `FrameLimits` in its own integer types. -/
structure WireLimits where
  maxWidth : BitVec 16
  maxHeight : BitVec 16
  maxPixels : BitVec 64
deriving DecidableEq

def WireLimits.limits (l : WireLimits) : FrameLimits := ⟨l.maxWidth.toNat, l.maxHeight.toNat, l.maxPixels.toNat⟩

inductive FrameCodec where
  | jpegTiles
deriving DecidableEq

inductive CursorMode where
  | composited
  | independent
deriving DecidableEq

inductive InputMode where
  | x11Keycodes
deriving DecidableEq

def FrameCodec.toU8 : FrameCodec → Byte
  | .jpegTiles => 1

def CursorMode.toU8 : CursorMode → Byte
  | .composited => 1
  | .independent => 2

def InputMode.toU8 : InputMode → Byte
  | .x11Keycodes => 1

structure StreamCapabilities where
  frameLimits : WireLimits
  codec : FrameCodec
  cursor : CursorMode
  input : InputMode
  clipboardFileLimit : BitVec 64
  clipboardContent : Byte
  clipboardDirections : Byte
deriving DecidableEq

namespace StreamCapabilities

def encode (s : StreamCapabilities) : List Byte :=
  [s.codec.toU8, s.cursor.toU8, s.input.toU8] ++ (wordBytes s.clipboardFileLimit ++ (wordBytes s.frameLimits.maxWidth ++
    (wordBytes s.frameLimits.maxHeight ++ (wordBytes s.frameLimits.maxPixels ++
      [s.clipboardContent, s.clipboardDirections]))))

def decodeCursor (modes : List Byte) : Except String CursorMode :=
  if modes = [1, 1, 1] then .ok .composited
  else if modes = [1, 2, 1] then .ok .independent
  else .error "unsupported remote codec, cursor or input mode"

/-- `matches!(content, 0 | 1 | 3 | 7)`. -/
def knownContent (content : Byte) : Bool := content = 0 || content = 1 || content = 3 || content = 7

def decode (payload : List Byte) : Except String StreamCapabilities := do
  rejectIf (payload.length ≠ streamCapabilitiesLen) "invalid bounded stream profile length"
  let cursor ← decodeCursor (slice payload 0 3)
  let content := payload.getD 23 0
  let directions := payload.getD 24 0
  rejectIf (!knownContent content || directions.toNat > 3 || (content = 0 : Bool) != (directions = 0 : Bool))
    "invalid clipboard content or direction policy"
  let frameLimits : WireLimits :=
    ⟨readWord 16 (slice payload 11 13), readWord 16 (slice payload 13 15), readWord 64 (slice payload 15 23)⟩
  frameLimits.limits.validate
  return {
    frameLimits, cursor
    codec := .jpegTiles
    input := .x11Keycodes
    clipboardFileLimit := readWord 64 (slice payload 3 11)
    clipboardContent := content
    clipboardDirections := directions }

end StreamCapabilities

/-! ## Prefix and viewport -/

def encodeHello (flags : Byte) (stream : StreamCapabilities) : List Byte :=
  applicationMagic ++ (toBeBytes 2 applicationVersion ++ ([flags] ++ stream.encode))

def decodePrefix (payload : List Byte) : Except String Byte := do
  rejectIf (payload.length ≠ helloPrefixLen || slice payload 0 8 ≠ applicationMagic)
    "peer is not using the JWM remote protocol"
  let version := fromBeBytes (slice payload 8 10)
  rejectIf (version ≠ applicationVersion)
    s!"unsupported JWM remote application version {version}; expected {applicationVersion}"
  let flags := payload.getD 10 0
  rejectIf (flags &&& ~~~knownHelloFlags ≠ 0) "peer advertised unknown remote capabilities"
  rejectIf (flags &&& flagClipboardFiles ≠ 0 ∧ flags &&& flagClipboard = 0)
    "peer advertised file sharing without clipboard sharing"
  return flags

def validateClipboardFlags (flags : Byte) (stream : StreamCapabilities) : Except String Unit :=
  rejectIf ((flags &&& flagClipboard != 0) != (stream.clipboardContent != 0) ||
    (flags &&& flagClipboardFiles != 0) != (stream.clipboardContent &&& 4 != 0) ||
    (stream.clipboardFileLimit != 0) != (stream.clipboardContent &&& 4 != 0))
    "clipboard flags, content and file limit disagree"

def encodeViewport (width height : BitVec 16) : List Byte := wordBytes width ++ wordBytes height

def decodeViewport (payload : List Byte) : Except String (BitVec 16 × BitVec 16) := do
  rejectIf (payload.length ≠ 4) "viewport payload must be exactly four bytes"
  let width := readWord 16 (payload.take 2)
  let height := readWord 16 (payload.drop 2)
  rejectIf (width = 0 || height = 0) "viewport has an empty dimension"
  return (width, height)

/-- The viewport of a hello; zeros ask for the host's default. -/
def readViewport (viewport : List Byte) : Except String (Option (BitVec 16 × BitVec 16)) :=
  if viewport = [0, 0, 0, 0] then .ok none else some <$> decodeViewport viewport

/-! ## Hellos -/

@[ext] structure ClientHello where
  stream : StreamCapabilities
  initialViewport : Option (BitVec 16 × BitVec 16)
  requestInput : Bool
  requestClipboard : Bool
  requestClipboardFiles : Bool
  keymap : KeymapTable
deriving DecidableEq

@[ext] structure ServerHello where
  stream : StreamCapabilities
  pointerEnabled : Bool
  keyboardEnabled : Bool
  clipboardEnabled : Bool
  clipboardFilesEnabled : Bool
deriving DecidableEq

/-- The clipboard's flags: files only with the clipboard itself. -/
def withClipboardFlags (flags : Byte) (clipboard files : Bool) : Byte :=
  if clipboard then
    let flags := flags ||| flagClipboard
    if files then flags ||| flagClipboardFiles else flags
  else flags

namespace ClientHello

def flags (h : ClientHello) : Byte :=
  withClipboardFlags (if h.requestInput then inputFlags else 0) h.requestClipboard h.requestClipboardFiles

def encode (h : ClientHello) : List Byte :=
  let (width, height) := h.initialViewport.getD (0, 0)
  h.keymap.encodeInto (encodeHello h.flags h.stream ++ encodeViewport width height)

def decode (payload : List Byte) : Except String ClientHello := do
  rejectIf (payload.length < helloPrefixLen || payload.length > maxClientHelloLen) "client hello has an invalid length"
  -- the version comes before the keymap, so that an older viewer is told the right reason
  let flags ← decodePrefix (slice payload 0 helloPrefixLen)
  rejectIf (payload.length < clientHelloHeaderLen) "client hello header is truncated"
  let stream ← StreamCapabilities.decode (slice payload helloPrefixLen serverHelloLen)
  validateClipboardFlags flags stream
  let initialViewport ← readViewport (slice payload serverHelloLen clientHelloHeaderLen)
  let keymap ← KeymapTable.decode (payload.drop clientHelloHeaderLen)
  return {
    stream, initialViewport, keymap
    requestInput := flags &&& inputFlags != 0
    requestClipboard := flags &&& flagClipboard != 0
    requestClipboardFiles := flags &&& flagClipboardFiles != 0 }

end ClientHello

namespace ServerHello

def flags (h : ServerHello) : Byte :=
  let flags : Byte := 0
  let flags := if h.pointerEnabled then flags ||| flagPointer else flags
  let flags := if h.keyboardEnabled then flags ||| flagKeyboard else flags
  withClipboardFlags flags h.clipboardEnabled h.clipboardFilesEnabled

def encode (h : ServerHello) : List Byte := encodeHello h.flags h.stream

def decode (payload : List Byte) : Except String ServerHello := do
  rejectIf (payload.length < helloPrefixLen) "server hello header is truncated"
  let flags ← decodePrefix (slice payload 0 helloPrefixLen)
  rejectIf (payload.length ≠ serverHelloLen) "server hello has an invalid length"
  let stream ← StreamCapabilities.decode (payload.drop helloPrefixLen)
  validateClipboardFlags flags stream
  return {
    stream
    pointerEnabled := flags &&& flagPointer != 0
    keyboardEnabled := flags &&& flagKeyboard != 0
    clipboardEnabled := flags &&& flagClipboard != 0
    clipboardFilesEnabled := flags &&& flagClipboardFiles != 0 }

end ServerHello

end Jwm.Remote
