/-
Agent sessions (`jwm/features/agent_sessions.rs`): the registered associations of terminal panes, and the reveal
requests a host claims and answers with a receipt. Arguments arrive as JSON; times are instants.
-/
import Jwm.Data.KeyMap
import Jwm.Data.Run

namespace Jwm.Features

/-! ## JSON arguments -/

/-- A JSON value, a number by what `as_u64` reads of it. -/
inductive Value where
  | null
  | bool (b : Bool)
  | number (u64 : Option Nat)
  | string (s : String)
  | array (values : List Value)
  | object (fields : List (String × Value))

namespace Value

/-- `value[key]`; null where there is no such field. -/
def index (v : Value) (key : String) : Value :=
  match v with
  | .object fields => ((fields.find? fun f => f.1 == key).map Prod.snd).getD .null
  | _ => .null

def asStr : Value → Option String
  | .string s => some s
  | _ => none

def asU64 : Value → Option Nat
  | .number n => n
  | _ => none

def asArray : Value → Option (List Value)
  | .array values => some values
  | _ => none

end Value

/-! ## Associations -/

def lease : Nat := 15 * 10 ^ 9

def requestTimeout : Nat := 5 * 10 ^ 9

def maxSessions : Nat := 1000

def maxRequests : Nat := 64

def isControl (c : Char) : Bool := c.toNat < 0x20 || (0x7f ≤ c.toNat && c.toNat ≤ 0x9f)

structure AgentSession where
  sessionId : String
  projectId : String
  provider : String
  hostId : String
  hostIncarnation : String
  paneId : String
  windowToken : String
  title : String
  status : String
  canReveal : Bool
  revision : Nat
deriving DecidableEq

def AgentSession.validate (s : AgentSession) : Except String Unit :=
  if [s.sessionId, s.projectId, s.hostId, s.hostIncarnation, s.paneId, s.windowToken].any fun value =>
      value.isEmpty || value.utf8ByteSize > 256 || value.toList.any isControl then
    .error "invalid_agent_session_identity"
  else if !(["anvil", "forge", "ember", "frost"].contains s.provider) ||
      !(["running", "waiting", "succeeded", "failed", "unknown", "disconnected"].contains s.status) ||
      s.title.utf8ByteSize > 512 || s.title.toList.any isControl || s.revision = 0 then
    .error "invalid_agent_session_metadata"
  else .ok ()

structure Entry where
  session : AgentSession
  seen : Nat
deriving DecidableEq

def Entry.expired (e : Entry) (now : Nat) : Bool := now - e.seen > lease

/-! ## Requests -/

inductive RevealStatus where
  | queued | claimed | revealed | failed | superseded | cancelled | unknown
deriving DecidableEq

structure Reveal where
  operationId : String
  sessionId : String
  hostId : String
  hostIncarnation : String
  paneId : String
  windowToken : String
  revision : Nat
  status : RevealStatus
  started : Nat
deriving DecidableEq

namespace Reveal

def pending (r : Reveal) : Bool := r.status == .queued || r.status == .claimed

def association (r : Reveal) : String × String × String × String × String × Nat :=
  (r.sessionId, r.hostId, r.hostIncarnation, r.paneId, r.windowToken, r.revision)

end Reveal

def AgentSession.association (s : AgentSession) : String × String × String × String × String × Nat :=
  (s.sessionId, s.hostId, s.hostIncarnation, s.paneId, s.windowToken, s.revision)

structure AgentSessions where
  entries : KeyMap String Entry
  requests : KeyMap String Reveal
  revision : Nat
  sequence : Nat

def AgentSessions.default : AgentSessions :=
  { entries := KeyMap.empty, requests := KeyMap.empty, revision := 0, sequence := 0 }

def operationId (wm : String) (sequence : Nat) : String := wm ++ ":agent:" ++ toString sequence

/-- The request that `queue` files under its operation id. -/
def AgentSession.reveal (session : AgentSession) (wm : String) (sequence now : Nat) : Reveal :=
  { operationId := operationId wm sequence, sessionId := session.sessionId, hostId := session.hostId
    hostIncarnation := session.hostIncarnation, paneId := session.paneId, windowToken := session.windowToken
    revision := session.revision, status := .queued, started := now }

namespace AgentSessions

variable (s : AgentSessions)

def supersede (id : String) (statuses : List RevealStatus) : KeyMap String Reveal :=
  s.requests.mapValues fun r => if r.sessionId = id && statuses.contains r.status then { r with status := .superseded } else r

/-- Whether the registration may take the session over; the registry makes room where it is new. -/
def admitSession (session : AgentSession) (now : Nat) : AgentSessions × Except String Unit :=
  match s.entries.get? session.sessionId with
  | some old =>
    if old.session.hostId ≠ session.hostId ∨ old.session.hostIncarnation ≠ session.hostIncarnation then
      if now - old.seen ≤ lease then (s, .error "agent_session_has_live_owner") else (s, .ok ())
    else if session.revision < old.session.revision ∨
        (session.revision = old.session.revision ∧ session ≠ old.session) then
      (s, .error "stale_agent_session_revision")
    else (s, .ok ())
  | none =>
    if s.entries.entries.length ≥ maxSessions then
      let s := { s with entries := s.entries.retain fun _ entry => now - entry.seen ≤ lease }
      if s.entries.entries.length ≥ maxSessions then (s, .error "agent_session_registry_full") else (s, .ok ())
    else (s, .ok ())

def register (session : AgentSession) (now : Nat) : AgentSessions × Except String Unit :=
  match session.validate with
  | .error e => (s, .error e)
  | .ok () =>
    match s.admitSession session now with
    | (s, .error e) => (s, .error e)
    | (s, .ok ()) =>
      let changed := (s.entries.get? session.sessionId).all fun old => old.session ≠ session || old.expired now
      ({ s with
          requests := if changed then s.supersede session.sessionId [.queued] else s.requests
          entries := s.entries.insert session.sessionId { session := session, seen := now }
          revision := if changed then min (s.revision + 1) (2 ^ 64 - 1) else s.revision }, .ok ())

def retireDestroyedAssociation (id : String) (windows : Value) : AgentSessions × Bool :=
  match windows.asArray with
  | none => (s, false)
  | some windows =>
    let gone := (s.entries.get? id).any fun entry =>
      !windows.any fun window => (window.index "target_token").asStr == some entry.session.windowToken
    if gone then
      ({ s with entries := s.entries.remove id, requests := s.supersede id [.queued, .claimed] }, true)
    else (s, false)

def active (id : String) (revision now : Nat) : Except String AgentSession :=
  match s.entries.get? id with
  | none => .error "agent_session_gone"
  | some entry =>
    if entry.session.revision ≠ revision then .error "stale_agent_session_revision"
    else if entry.expired now || !entry.session.canReveal || entry.session.status == "disconnected" then
      .error "agent_session_disconnected_or_unsupported"
    else .ok entry.session

/-- Requests not answered in time have an unknown outcome. -/
def settle (now : Nat) : AgentSessions :=
  { s with requests := s.requests.mapValues fun r =>
      if r.pending && now - r.started > requestTimeout then { r with status := .unknown } else r }

def queue (session : AgentSession) (wm : String) (now : Nat) : AgentSessions × Except String Reveal :=
  let s := s.settle now
  match s.requests.entries.find? fun e => e.2.association == session.association && e.2.pending with
  | some e => (s, .ok e.2)
  | none =>
    let s := { s with requests := s.requests.retain fun _ r => now - r.started < 60 * 10 ^ 9 }
    if s.requests.entries.length ≥ maxRequests then (s, .error "agent_reveal_queue_full")
    else if s.sequence + 1 ≥ 2 ^ 64 then (s, .error "agent_reveal_sequence_exhausted")
    else
      let s := { s with sequence := s.sequence + 1 }
      let request := session.reveal wm s.sequence now
      ({ s with requests := s.requests.insert request.operationId request }, .ok request)

/-- Whether the arguments name the identity of the request. -/
def names (args : Value) (r : Reveal) : Bool :=
  [("session_id", r.sessionId), ("host_id", r.hostId), ("host_incarnation", r.hostIncarnation), ("pane_id", r.paneId),
    ("window_token", r.windowToken)].all fun (field, expected) => (args.index field).asStr == some expected

/-- Whether the registered association is still the one of the request. -/
def sameAssociation (current : AgentSession) (r : Reveal) : Bool :=
  current.hostId == r.hostId && current.hostIncarnation == r.hostIncarnation && current.paneId == r.paneId &&
    current.windowToken == r.windowToken

/-- `claim`, with whether the request was claimed already. -/
def claim (args : Value) (now : Nat) : AgentSessions × Except String (Reveal × Bool) :=
  let s := s.settle now
  match (args.index "operation_id").asStr with
  | none => (s, .error "missing_operation_id")
  | some id =>
    match s.requests.get? id with
    | none => (s, .error "agent_reveal_gone")
    | some request =>
      match s.active request.sessionId request.revision now with
      | .error e => (s, .error e)
      | .ok current =>
        if !names args request then (s, .error "agent_reveal_identity_mismatch")
        else if (args.index "revision").asU64 ≠ some request.revision || !sameAssociation current request then
          (s, .error "agent_reveal_association_changed")
        else if request.status = .claimed then (s, .ok (request, true))
        else if request.status ≠ .queued then (s, .error "agent_reveal_already_settled_or_unknown")
        else
          let request := { request with status := .claimed }
          ({ s with requests := s.requests.insert id request }, .ok (request, false))

def receiptStatus (args : Value) : Option RevealStatus :=
  match (args.index "status").asStr with
  | some "revealed" => some .revealed
  | some "failed" => some .failed
  | _ => none

def receipt (args : Value) (now : Nat) : AgentSessions × Except String Reveal :=
  let s := s.settle now
  match (args.index "operation_id").asStr with
  | none => (s, .error "missing_operation_id")
  | some id =>
    match s.requests.get? id with
    | none => (s, .error "agent_reveal_gone")
    | some request =>
      if !names args request then (s, .error "agent_reveal_identity_mismatch")
      else
        match s.active request.sessionId request.revision now with
        | .error e => (s, .error e)
        | .ok active =>
          if !sameAssociation active request then (s, .error "agent_reveal_association_changed")
          else if (args.index "revision").asU64 ≠ some request.revision then (s, .error "stale_agent_session_revision")
          else
            match receiptStatus args with
            | none => (s, .error "invalid_agent_reveal_status")
            | some status =>
              if request.status = status then (s, .ok request)
              else if request.status ≠ .claimed then (s, .error "agent_reveal_not_claimed_or_already_settled")
              else
                let request := { request with status := status }
                ({ s with requests := s.requests.insert request.operationId request }, .ok request)

def activationStatus (operation : String) (now : Nat) : AgentSessions × Option Reveal :=
  let s := s.settle now
  (s, s.requests.get? operation)

def cancelActivation (operation : String) : AgentSessions :=
  match s.requests.get? operation with
  | some request =>
    if request.status = .queued then
      { s with requests := s.requests.insert operation { request with status := .cancelled } }
    else s
  | none => s

end AgentSessions

/-! ## Calls -/

inductive AgentCall where
  | register (session : AgentSession) (now : Nat)
  | retireDestroyedAssociation (id : String) (windows : Value)
  /-- A request for a session as `active` returns it. -/
  | queue (id : String) (revision : Nat) (wm : String) (now : Nat)
  | claim (args : Value) (now : Nat)
  | receipt (args : Value) (now : Nat)
  | activationStatus (operation : String) (now : Nat)
  | cancelActivation (operation : String)

inductive AgentAnswer where
  | registered (result : Except String Unit)
  | retired (gone : Bool)
  | queued (result : Except String Reveal)
  | claimed (result : Except String (Reveal × Bool))
  | receipt (result : Except String Reveal)
  | status (request : Option Reveal)
  | done

def AgentCall.time : AgentCall → Option Nat
  | .register _ now | .queue _ _ _ now | .claim _ now | .receipt _ now | .activationStatus _ now => some now
  | .retireDestroyedAssociation .. | .cancelActivation _ => none

def AgentSessions.step (s : AgentSessions) : AgentCall → AgentSessions × AgentAnswer
  | .register session now => let (s, result) := s.register session now; (s, .registered result)
  | .retireDestroyedAssociation id windows => let (s, gone) := s.retireDestroyedAssociation id windows; (s, .retired gone)
  | .queue id revision wm now =>
    match s.active id revision now with
    | .error e => (s, .queued (.error e))
    | .ok session => let (s, result) := s.queue session wm now; (s, .queued result)
  | .claim args now => let (s, result) := s.claim args now; (s, .claimed result)
  | .receipt args now => let (s, result) := s.receipt args now; (s, .receipt result)
  | .activationStatus operation now => let (s, request) := s.activationStatus operation now; (s, .status request)
  | .cancelActivation operation => (s.cancelActivation operation, .done)

end Jwm.Features
