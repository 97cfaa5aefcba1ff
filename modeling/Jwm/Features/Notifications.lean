/-
The notification history (`jwm/features/notifications.rs`): posting, closing and acting on notifications, the events
broadcast on the way, and the file the history is written to and read back from.
-/
import Jwm.Features.NotificationText

namespace Jwm.Features

def maxHistory : Nat := 64

def historyFileVersion : UInt32 := 1

def maxHistoryRecordBytes : Nat := 8192

def maxHistoryBytes : Nat := maxHistory * maxHistoryRecordBytes + 1024

inductive CloseReason where
  | expired | dismissed | requested | undefined
deriving DecidableEq

structure NotificationRecord where
  id : UInt32
  app : String
  summary : String
  body : String
  urgency : UInt8
  postedUnixMs : UInt64
  suppressed : Bool
  actions : List NotificationAction
deriving DecidableEq

structure NotificationRequest where
  app : String
  summary : String
  body : String
  urgency : UInt8
  replacesId : UInt32
  actions : List NotificationAction
deriving DecidableEq

def NotificationRequest.record (request : NotificationRequest) (id : UInt32) (postedUnixMs : UInt64) (suppressed : Bool) :
    NotificationRecord :=
  { id, app := sanitize request.app, summary := sanitize request.summary, body := sanitize request.body
    urgency := min request.urgency 2, postedUnixMs, suppressed, actions := sanitizeActions request.actions }

/-- Oldest record first. -/
structure NotificationCenter where
  records : List NotificationRecord
  nextId : UInt32
  evicted : List UInt32
deriving DecidableEq

namespace NotificationCenter

def default : NotificationCenter := { records := [], nextId := 0, evicted := [] }

variable (c : NotificationCenter)

def ids : List UInt32 := c.records.map NotificationRecord.id

/-- The loop of `allocate_id`, for at most `n` rounds. -/
def allocateFrom (held : List UInt32) : Nat → UInt32 → Option UInt32
  | 0, _ => none
  | n + 1, nextId =>
    let nextId := if nextId + 1 = 0 then 1 else nextId + 1
    if nextId ∈ held then allocateFrom held n nextId else some nextId

/-- `allocate_id`; none where it would never return, all identifiers being held. -/
def allocateId : Option UInt32 := allocateFrom c.ids (2 ^ 32) c.nextId

/-- Drop the oldest records while there are too many, and list their identifiers. -/
def evictOldest : List NotificationRecord → List UInt32 → List NotificationRecord × List UInt32
  | [], evicted => ([], evicted)
  | record :: records, evicted =>
    if (record :: records).length > maxHistory then evictOldest records (evicted ++ [record.id])
    else (record :: records, evicted)

def push (request : NotificationRequest) (postedUnixMs : UInt64) (suppressed : Bool) :
    NotificationCenter × Option UInt32 :=
  match if request.replacesId = 0 then none else c.records.findIdx? fun r => r.id = request.replacesId with
  | some index =>
    ({ c with records := c.records.modify index fun r => request.record r.id postedUnixMs suppressed },
      some request.replacesId)
  | none =>
    match c.allocateId with
    | none => (c, none)
    | some id =>
      let (records, evicted) := evictOldest (c.records ++ [request.record id postedUnixMs suppressed]) c.evicted
      ({ records, nextId := id, evicted }, some id)

def takeEvicted : NotificationCenter × List UInt32 := ({ c with evicted := [] }, c.evicted)

def get (id : UInt32) : Option NotificationRecord := c.records.find? fun r => r.id = id

def close (id : UInt32) : NotificationCenter × Bool :=
  match c.records.findIdx? fun r => r.id = id with
  | none => (c, false)
  | some index => ({ c with records := c.records.eraseIdx index }, true)

def clear : NotificationCenter × Nat := ({ c with records := [] }, c.records.length)

end NotificationCenter

/-! ## The file -/

structure HistoryFile where
  version : UInt32
  nextId : UInt32
  notifications : List NotificationRecord
deriving DecidableEq

/-- The JSON reader and writer of a history file. -/
structure HistoryCodec where
  toString : HistoryFile → Option String
  fromStr : String → Option HistoryFile

def serializeHistory (codec : HistoryCodec) (records : List NotificationRecord) (nextId : UInt32) : String :=
  let kept := records.drop (records.length - maxHistory)
  (codec.toString { version := historyFileVersion, nextId, notifications := kept }).getD
    ("\x7b\"version\":" ++ toString historyFileVersion ++ ",\"next_id\":" ++ toString nextId ++ ",\"notifications\":[]\x7d")

/-- A record read back, held to the bounds of one that is posted. -/
def NotificationRecord.restored (r : NotificationRecord) : NotificationRecord :=
  { r with
      app := sanitize r.app, summary := sanitize r.summary, body := sanitize r.body, urgency := min r.urgency 2
      actions := sanitizeActions r.actions }

def restoreRecord (restored : UInt32 × List NotificationRecord) (r : NotificationRecord) :
    UInt32 × List NotificationRecord :=
  if r.id = 0 then restored
  else (max restored.1 r.id, (restored.2.filter fun existing => existing.id ≠ r.id) ++ [r.restored])

def parseHistory (codec : HistoryCodec) (text : String) : Option NotificationCenter :=
  match codec.fromStr text with
  | none => none
  | some file =>
    if file.version ≠ historyFileVersion then none
    else
      let kept := file.notifications.drop (file.notifications.length - maxHistory)
      let (nextId, records) := kept.foldl restoreRecord (file.nextId, [])
      some { records, nextId, evicted := [] }

/-! ## Calls -/

structure ToastNotification where
  title : String
  app : String
  body : String
  urgency : UInt8
  timeoutMs : UInt32
  actions : List NotificationAction
  notificationId : UInt32
deriving DecidableEq

/-- What a call shows and broadcasts. -/
inductive NotificationEffect where
  | closed (id : UInt32) (reason : CloseReason)
  | toast (toast : ToastNotification)
  /-- The payload of the record as it is kept, if it is. -/
  | posted (id : UInt32) (suppressed : Bool) (payload : Option (String × String × String × UInt8))
  | action (id : UInt32) (key : String)
deriving DecidableEq

open NotificationCenter

def postedEventPayload (r : NotificationRecord) : String × String × String × UInt8 := (r.app, r.summary, r.body, r.urgency)

def postNotification (c : NotificationCenter) (request : NotificationRequest) (timeoutMs : UInt32) (nowUnixMs : UInt64)
    (doNotDisturb : Bool) : NotificationCenter × List NotificationEffect × Option UInt32 :=
  match c.push request nowUnixMs doNotDisturb with
  | (c, none) => (c, [], none)
  | (c, some id) =>
    let (c, evicted) := c.takeEvicted
    let toast : ToastNotification :=
      { title := if request.summary.toList.all Ipc.isWhitespace then request.app else request.summary
        app := ((c.get id).map NotificationRecord.app).getD "", body := request.body, urgency := min request.urgency 2
        timeoutMs, actions := ((c.get id).map NotificationRecord.actions).getD [], notificationId := id }
    (c, evicted.map (.closed · .undefined) ++ (if doNotDisturb then [] else [.toast toast]) ++
      [.posted id doNotDisturb ((c.get id).map postedEventPayload)], some id)

def closeNotification (c : NotificationCenter) (id : UInt32) (reason : CloseReason) :
    NotificationCenter × List NotificationEffect × Bool :=
  match c.close id with
  | (c, false) => (c, [], false)
  | (c, true) => (c, [.closed id reason], true)

def clearNotifications (c : NotificationCenter) : NotificationCenter × List NotificationEffect × Nat :=
  let ids := c.ids.reverse
  let (c, count) := c.clear
  (c, ids.map (.closed · .undefined), count)

def invokeNotificationAction (c : NotificationCenter) (id : UInt32) (action : String) :
    NotificationCenter × List NotificationEffect × Bool :=
  let offered := (c.get id).any fun record => record.actions.any fun entry => entry.key = action
  if !offered then (c, [], false)
  else
    let (c, effects, _) := closeNotification c id .dismissed
    (c, .action id action :: effects, true)

inductive NotificationCall where
  | post (request : NotificationRequest) (timeoutMs : UInt32) (nowUnixMs : UInt64) (doNotDisturb : Bool)
  | close (id : UInt32) (reason : CloseReason)
  | clear
  | invoke (id : UInt32) (action : String)
  /-- The history is written, and the next process reads it. -/
  | restart
deriving DecidableEq

inductive NotificationAnswer where
  | posted (id : Option UInt32)
  | closed (found : Bool)
  | cleared (count : Nat)
  | invoked (offered : Bool)
  | restarted (loaded : Bool)
deriving DecidableEq

/-- A call, with what it shows and broadcasts and its answer. -/
def notificationStep (codec : HistoryCodec) (c : NotificationCenter) :
    NotificationCall → NotificationCenter × List NotificationEffect × NotificationAnswer
  | .post request timeoutMs nowUnixMs doNotDisturb =>
    let (c, effects, id) := postNotification c request timeoutMs nowUnixMs doNotDisturb
    (c, effects, .posted id)
  | .close id reason =>
    let (c, effects, found) := closeNotification c id reason
    (c, effects, .closed found)
  | .clear =>
    let (c, effects, count) := clearNotifications c
    (c, effects, .cleared count)
  | .invoke id action =>
    let (c, effects, offered) := invokeNotificationAction c id action
    (c, effects, .invoked offered)
  | .restart =>
    match parseHistory codec (serializeHistory codec c.records c.nextId) with
    | some c => (c, [], .restarted true)
    | none => (.default, [], .restarted false)

end Jwm.Features
