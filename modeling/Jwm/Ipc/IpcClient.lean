/-
One client of the control socket (`ipc_server.rs`): its input buffer with the two cursors, its output buffer,
and the replies that wait for earlier ones. The socket is what its reads and writes will do.
-/
import Jwm.Data.Bytes

namespace Jwm.Ipc

/-! ## The wire protocol -/

inductive IpcMessage (V : Type) where
  | command (command : String) (args : V)
  | query (query : String) (args : V)
  | subscribe (topics : List String)
deriving DecidableEq

structure IpcResponse (V : Type) where
  success : Bool
  data : Option V
  error : Option String
deriving DecidableEq

def IpcResponse.err {V : Type} (msg : String) : IpcResponse V := ⟨false, none, some msg⟩

structure IpcEvent (V : Type) where
  event : String
  payload : V

/-- `serde_json`: the frames it accepts, with the text of its errors, and what it writes. -/
structure Json (V : Type) where
  parse : List Byte → Except String (IpcMessage V)
  response : IpcResponse V → List Byte
  event : IpcEvent V → List Byte

/-! ## The socket -/

def newline : Byte := 10

/-- What a `read` of the socket will do; a ready one returns at most `count + 1` bytes, and none at the end of the
stream. -/
inductive ReadOutcome where
  | ready (count : Nat)
  | wouldBlock
  | interrupted
  | failed

/-- What a `write` will do. -/
inductive WriteOutcome where
  | written (count : Nat)
  | wouldBlock
  | interrupted
  | failed

/-- `incoming` is what the peer sends and was not read yet; with no outcome left, the socket blocks. -/
structure UnixStream where
  incoming : List Byte
  reads : List ReadOutcome
  sent : List Byte
  writes : List WriteOutcome

inductive IoError where
  | unexpectedEof (message : String)
  | invalidData (message : String)
  | writeZero (message : String)
  | other
deriving DecidableEq

/-! ## The client -/

inductive LineKind where
  | reply
  | parseError
  | event
deriving DecidableEq

/-- A line as it was queued. -/
structure QueuedLine where
  kind : LineKind
  json : List Byte
deriving DecidableEq

def QueuedLine.bytes (line : QueuedLine) : List Byte := line.json ++ [newline]

/-- `frames` and `queued` record the frames that were taken and the lines that were queued. -/
structure IpcClient where
  stream : UnixStream
  buf : List Byte
  bufStart : Nat
  scanPos : Nat
  outBuf : List Byte
  outStart : Nat
  subscriptions : List String
  readClosed : Bool
  deliveredFrames : Nat
  answeredFrames : Nat
  deferredErrors : List (Nat × String)
  frames : List (List Byte)
  queued : List QueuedLine

namespace IpcClient

def maxClientBuf : Nat := 1024 * 1024
def maxReadBytesPerPoll : Nat := 64 * 1024
def maxMessagesPerPoll : Nat := 64

def new (stream : UnixStream) : IpcClient where
  stream := stream
  buf := []
  bufStart := 0
  scanPos := 0
  outBuf := []
  outStart := 0
  subscriptions := []
  readClosed := false
  deliveredFrames := 0
  answeredFrames := 0
  deferredErrors := []
  frames := []
  queued := []

/-! ## Input -/

/-- The loop of `take_complete_messages`, over the bytes from `scanPos` on: where the unfinished line starts, how
far it was scanned, and the lines. -/
def scanLines (buf : List Byte) (limit : Nat) : List Byte → Nat → Nat → List (List Byte) → Nat × Nat × List (List Byte)
  | [], lineStart, scanPos, messages => (lineStart, scanPos, messages)
  | byte :: rest, lineStart, scanPos, messages =>
    if byte ≠ newline then scanLines buf limit rest lineStart (scanPos + 1) messages
    else
      let line := slice buf lineStart scanPos
      if line.isEmpty then scanLines buf limit rest (scanPos + 1) (scanPos + 1) messages
      else if (messages ++ [line]).length = limit then (scanPos + 1, scanPos + 1, messages ++ [line])
      else scanLines buf limit rest (scanPos + 1) (scanPos + 1) (messages ++ [line])

variable (c : IpcClient)

def takeCompleteMessages (limit : Nat) : IpcClient × List (List Byte) :=
  if limit = 0 ∨ c.bufStart = c.buf.length then (c, [])
  else
    let scanPos := max c.scanPos c.bufStart
    let (lineStart, scanPos, messages) := scanLines c.buf limit (c.buf.drop scanPos) c.bufStart scanPos []
    ({ c with bufStart := lineStart, scanPos := scanPos }, messages)

def compactInputBuffer : IpcClient :=
  if c.bufStart = 0 then c
  else if c.bufStart = c.buf.length then { c with buf := [], bufStart := 0, scanPos := 0 }
  else if c.bufStart ≥ 64 * 1024 ∨ c.bufStart ≥ c.buf.length / 2 then
    { c with buf := c.buf.drop c.bufStart, bufStart := 0, scanPos := c.scanPos - c.bufStart }
  else c

/-- `u8::is_ascii_whitespace`. -/
def isAsciiWhitespace (byte : Byte) : Bool := byte = 32 || byte = 9 || byte = 10 || byte = 12 || byte = 13

/-- `trim_ascii`. -/
def trimAscii (bytes : List Byte) : List Byte :=
  ((bytes.dropWhile isAsciiWhitespace).reverse.dropWhile isAsciiWhitespace).reverse

def takeUnterminatedFinalFrame (limit : Nat) (messages : List (List Byte)) :
    IpcClient × List (List Byte) :=
  if !c.readClosed ∨ messages.length ≥ limit ∨ c.bufStart = c.buf.length then (c, messages)
  else
    let tail := c.buf.drop c.bufStart
    let messages := if (trimAscii tail).isEmpty then messages else messages ++ [tail]
    ({ c with bufStart := c.buf.length, scanPos := c.buf.length }.compactInputBuffer, messages)

/-- The read loop of `read_messages`, with the number of bytes read so far. -/
def readLoop (readByteLimit : Nat) : List ReadOutcome → IpcClient → Nat → IpcClient × Option IoError × Nat
  | [], c, bytesRead => (c, none, bytesRead)
  | outcome :: reads, c, bytesRead =>
    if bytesRead < readByteLimit then
      let chunkLen := min (readByteLimit - bytesRead) 4096
      match outcome with
      | .ready count =>
        let n := min (count + 1) chunkLen
        let bytes := c.stream.incoming.take n
        if bytes.isEmpty then
          ({ c with stream := { c.stream with reads := reads }, readClosed := true }, none, bytesRead)
        else
          let stream := { c.stream with reads := reads, incoming := c.stream.incoming.drop n }
          let c := { c with stream := stream, buf := c.buf ++ bytes }
          let bytesRead := bytesRead + bytes.length
          if c.buf.length - c.bufStart > maxClientBuf then
            (c, some (.invalidData "client message buffer exceeded limit"), bytesRead)
          else readLoop readByteLimit reads c bytesRead
      | .wouldBlock => ({ c with stream := { c.stream with reads := reads } }, none, bytesRead)
      | .interrupted => readLoop readByteLimit reads { c with stream := { c.stream with reads := reads } } bytesRead
      | .failed => ({ c with stream := { c.stream with reads := reads } }, some .other, bytesRead)
    else (c, none, bytesRead)

def clientDisconnected : IoError := .unexpectedEof "client disconnected"

def readMessages (messageBudget readByteBudget : Nat) :
    IpcClient × Except IoError (List (List Byte)) × Nat :=
  let messageLimit := min messageBudget maxMessagesPerPoll
  let readByteLimit := min readByteBudget maxReadBytesPerPoll
  if messageLimit = 0 then (c, .ok [], 0)
  else
    let (c, messages) := c.takeCompleteMessages messageLimit
    let c := c.compactInputBuffer
    if messages.length = messageLimit then (c, .ok messages, 0)
    else if c.readClosed then
      let (c, messages) := c.takeUnterminatedFinalFrame messageLimit messages
      (c, if messages.isEmpty then .error clientDisconnected else .ok messages, 0)
    else
      match c.readLoop readByteLimit c.stream.reads 0 with
      | (c, some error, bytesRead) => (c, .error error, bytesRead)
      | (c, none, bytesRead) =>
        let (c, more) := c.takeCompleteMessages (messageLimit - messages.length)
        let (c, messages) := c.compactInputBuffer.takeUnterminatedFinalFrame messageLimit (messages ++ more)
        (c, if messages.isEmpty && c.readClosed then .error clientDisconnected else .ok messages, bytesRead)

def hasBufferedFrame : Bool :=
  (c.readClosed && decide (c.bufStart < c.buf.length)) || (c.buf.drop (max c.scanPos c.bufStart)).contains newline

/-! ## Output -/

/-- `compact_output_buffer`. -/
def compactOutputBuffer (buf : List Byte) (start : Nat) : List Byte × Nat :=
  if start = 0 then (buf, start)
  else if start = buf.length then ([], 0)
  else if start ≥ 64 * 1024 ∨ start ≥ buf.length / 2 then (buf.drop start, 0)
  else (buf, start)

def queue (kind : LineKind) (json : List Byte) : IpcClient :=
  let (outBuf, outStart) := compactOutputBuffer c.outBuf c.outStart
  { c with outBuf := outBuf ++ json ++ [newline], outStart := outStart, queued := c.queued ++ [⟨kind, json⟩] }

def hasPendingOutput : Bool := c.outStart < c.outBuf.length

/-- The write loop of `flush_output_buffer`: the cursor, what the socket took, and whether a write failed. -/
def writeLoop (buf : List Byte) : List WriteOutcome → Nat → List Byte → List WriteOutcome × Nat × List Byte × Option IoError
  | [], start, sent => ([], start, sent, none)
  | outcome :: writes, start, sent =>
    if start < buf.length then
      match outcome with
      | .written count =>
        let n := min count (buf.length - start)
        if n = 0 then (writes, start, sent, some (.writeZero "write returned 0"))
        else writeLoop buf writes (start + n) (sent ++ slice buf start (start + n))
      | .wouldBlock => (writes, start, sent, none)
      | .interrupted => writeLoop buf writes start sent
      | .failed => (writes, start, sent, some .other)
    else (outcome :: writes, start, sent, none)

/-- `flush_out`. -/
def flushOut : IpcClient × Option IoError :=
  match writeLoop c.outBuf c.stream.writes c.outStart c.stream.sent with
  | (writes, start, sent, some error) =>
    ({ c with stream := { c.stream with writes := writes, sent := sent }, outStart := start }, some error)
  | (writes, start, sent, none) =>
    let (outBuf, outStart) := compactOutputBuffer c.outBuf start
    ({ c with stream := { c.stream with writes := writes, sent := sent }, outBuf := outBuf, outStart := outStart },
      if outBuf.length - outStart > maxClientBuf then some (.invalidData "client outbound buffer exceeded limit") else none)

/-! ## Replies -/

variable {V : Type}

def queueParseError (json : Json V) (c : IpcClient) (error : String) : IpcClient :=
  c.queue .parseError (json.response (IpcResponse.err error))

/-- `queue_due_parse_errors`, over the errors still deferred. -/
def queueDueParseErrors (json : Json V) : List (Nat × String) → IpcClient → IpcClient
  | [], c => { c with deferredErrors := [] }
  | (due, error) :: rest, c =>
    if due ≤ c.answeredFrames then queueDueParseErrors json rest (c.queueParseError json error)
    else { c with deferredErrors := (due, error) :: rest }

def sendResponse (json : Json V) (c : IpcClient) (resp : IpcResponse V) : IpcClient × Option IoError :=
  let c := { c with answeredFrames := min (c.answeredFrames + 1) c.deliveredFrames }
  let c := c.queue .reply (json.response resp)
  (queueDueParseErrors json c.deferredErrors c).flushOut

def rejectFrame (json : Json V) (c : IpcClient) (error : String) : IpcClient × Option IoError :=
  if c.answeredFrames = c.deliveredFrames ∧ c.deferredErrors = [] then (c.queueParseError json error).flushOut
  else ({ c with deferredErrors := c.deferredErrors ++ [(c.deliveredFrames, error)] }, none)

def releaseAbandonedReplies (json : Json V) (c : IpcClient) : IpcClient :=
  if c.deferredErrors = [] then c
  else queueDueParseErrors json c.deferredErrors { c with answeredFrames := c.deliveredFrames }

def sendEvent (json : Json V) (c : IpcClient) (event : IpcEvent V) : IpcClient × Option IoError :=
  (c.queue .event (json.event event)).flushOut

def isSubscribed (eventType : String) : Bool :=
  c.subscriptions.any fun subscription =>
    subscription = "*" || subscription = eventType ||
      (subscription.toList.isPrefixOf eventType.toList && (eventType.toList.drop subscription.length).head? = some '/')

end IpcClient

end Jwm.Ipc
