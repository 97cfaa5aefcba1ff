/-
Main-loop authority for Eva (`jwm/eva.rs`): permits with a lease, confirmations approved position by position, and
the operations already dispatched. The clock is read once before a dispatch and once after it.
-/
import Jwm.Data.Json
import Jwm.Data.KeyMap
import Jwm.Data.Run

namespace Jwm.Authority

open Json

/-! ## Requests -/

def lease : Nat := 3 * 10 ^ 9

def retention : Nat := 600 * 10 ^ 9

/-- How long an accepted operation may stay without its completion. -/
def completionDeadline : Nat := 20 * 10 ^ 9

def maxOperations : Nat := 1024

def maxRequestBytes : Nat := 1024 * 1024

def maxActionsPerPlan : Nat := 32

structure AssistantPermit where
  assistantSessionId : String
  generation : Nat
deriving DecidableEq

def AssistantPermit.parse (v : Json) : Option AssistantPermit := do
  let fields ← structFields ["assistant_session_id", "generation"] v
  let assistantSessionId ← (← field fields "assistant_session_id").asStr
  let generation ← (← field fields "generation").asU64
  some { assistantSessionId, generation }

structure ExpectedContext where
  sessionUnlocked : Bool
  monitorToken : Option String
  focusToken : Option String
  visibleTagMask : Option Nat
deriving DecidableEq

def ExpectedContext.parse (v : Json) : Option ExpectedContext := do
  let fields ← structFields ["session_unlocked", "monitor_token", "focus_token", "visible_tag_mask"] v
  let sessionUnlocked ← (← field fields "session_unlocked").asBool
  let monitorToken ← optional asStr (field fields "monitor_token")
  let focusToken ← optional asStr (field fields "focus_token")
  let visibleTagMask ← optional (asUpTo (2 ^ 32 - 1)) (field fields "visible_tag_mask")
  some { sessionUnlocked, monitorToken, focusToken, visibleTagMask }

structure Action where
  name : String
  arguments : Json
deriving DecidableEq

def Action.parse (v : Json) : Option Action := do
  let fields ← structFields ["name", "arguments"] v
  let name ← (← field fields "name").asStr
  let arguments ← field fields "arguments"
  some { name, arguments }

def Action.toJson (a : Action) : Json := .object [("arguments", a.arguments), ("name", .string a.name)]

structure GuardedRequest where
  protocolVersion : Nat
  wmInstanceId : String
  assistantPermit : AssistantPermit
  operationId : String
  requestDigest : String
  expectedContext : ExpectedContext
  action : Action
  confirmationToken : Option String
deriving DecidableEq

def GuardedRequest.parse (v : Json) : Option GuardedRequest := do
  let fields ← structFields ["protocol_version", "wm_instance_id", "assistant_permit", "operation_id",
    "request_digest", "expected_context", "action", "confirmation_token"] v
  let protocolVersion ← asUpTo (2 ^ 32 - 1) (← field fields "protocol_version")
  let wmInstanceId ← (← field fields "wm_instance_id").asStr
  let assistantPermit ← AssistantPermit.parse (← field fields "assistant_permit")
  let operationId ← (← field fields "operation_id").asStr
  let requestDigest ← (← field fields "request_digest").asStr
  let expectedContext ← ExpectedContext.parse (← field fields "expected_context")
  let action ← Action.parse (← field fields "action")
  let confirmationToken ← optional asStr (field fields "confirmation_token")
  some { protocolVersion, wmInstanceId, assistantPermit, operationId, requestDigest, expectedContext, action
         confirmationToken }

def boundedIdentifier (s : String) : Bool :=
  !s.isEmpty && s.utf8ByteSize ≤ 128 && !s.toList.any fun c => c.toNat < 0x20 || (0x7f ≤ c.toNat && c.toNat ≤ 0x9f)

/-! ## The runtime -/

/-- `completion` is what a later observation writes into `verified`. -/
structure OperationResult where
  operationId : String
  status : String
  verified : Option Json
  error : Option String
  completion : Option String
deriving DecidableEq

structure Operation where
  digest : String
  request : Json
  result : OperationResult
  expires : Nat
  terminal : Bool
  clipboardReceipt : Bool
deriving DecidableEq

structure Confirmation where
  expiryReported : Bool
  token : String
  planHash : String
  targets : Json
  expires : Nat
  approved : Bool
  used : List Bool
  restoreSnapshot : Option Json
  restoreWindows : List String
  restoreMonitors : List String
deriving DecidableEq

structure EvaRuntime where
  generation : Nat
  confirmationGeneration : Nat
  activationMonitor : Option Nat
  presentationMonitor : Option Nat
  permit : Option AssistantPermit
  leaseUntil : Option Nat
  state : String
  wakeRequested : Bool
  wakeGeneration : Nat
  wakeLeaseUntil : Option Nat
  wakeMicrophoneActive : Bool
  standbyAllowed : Bool
  statusTurnEpoch : Option Nat
  confirmation : Option Confirmation
  operations : KeyMap String Operation

def EvaRuntime.default : EvaRuntime :=
  { generation := 0, confirmationGeneration := 0, activationMonitor := none, presentationMonitor := none, permit := none
    leaseUntil := none, state := "idle", wakeRequested := false, wakeGeneration := 0, wakeLeaseUntil := none
    wakeMicrophoneActive := false, standbyAllowed := false, statusTurnEpoch := none, confirmation := none
    operations := KeyMap.empty }

/-- What stays for the life of the process, and the tables and digests the authority consults. -/
structure Host where
  wmInstance : String
  sessionId : String
  /-- The digest of a value in canonical form, and the length of its text. -/
  digest : Json → String
  bytes : Json → Nat
  riskClass : String → Option String
  validateExecutionAction : Action → Except String Unit

inductive ClipboardReceiptStatus where
  | pending | owned | failed
deriving DecidableEq

/-- What a call finds of the session around it. Presentable monitors are asked for by preference. -/
structure EvaEnv where
  now : Nat
  monotonicNs : Nat
  running : Bool
  uiLocked : Bool
  monitorLocks : Bool
  compositorLocked : Bool
  supportsOverlay : Bool
  presentable : Option Nat → Option Nat
  selMon : Option Nat
  hasMonitor : Nat → Bool
  resolveMonitor : String → Option Nat
  monitorLocked : Nat → Bool
  activeTags : Nat → Nat
  focusToken : Option String
  monitorHistory : List (Nat × Option String)
  monitorTokens : List String
  loadRestore : Except String Json
  restoreMatching : Json → List String
  checkUndoState : Action → Except String Unit
  receipt : String → ClipboardReceiptStatus

/-- A dispatch, with the position of the confirmation it uses. -/
structure Dispatch where
  operationId : String
  request : Json
  permit : AssistantPermit
  action : Action
  position : Option Nat
  time : Nat
deriving DecidableEq

/-- What a call makes known. `frozen`, `dispatched` and `returned` are steps of it that others cannot see. -/
inductive EvaEvent where
  | cancelled (reason : String) (permit : AssistantPermit)
  | activated (permit : AssistantPermit)
  | frozen (targets : Json) (expires : Nat)
  | confirmed (token planHash : String) (permit : Option AssistantPermit) (time : Nat)
  | confirmationExpired
  | execution (operationId : String) (result : OperationResult) (time : Nat)
  | dispatched (d : Dispatch)
  | returned (operationId : String) (result : OperationResult) (time : Nat)
deriving DecidableEq

inductive Response where
  | ok (result : Option OperationResult)
  | err (code : String)
  /-- The call panics. -/
  | crash
deriving DecidableEq

/-- With what completes it at `t`. -/
def Operation.close (op : Operation) (t : Nat) : Option OperationResult → Operation
  | some result => { op with result, terminal := true, expires := t + retention }
  | none => op

/-- The operations that `f` completes at `t`, made known. -/
def executions (operations : KeyMap String Operation) (f : Operation → Option OperationResult) (t : Nat) : List EvaEvent :=
  operations.entries.filterMap fun e => (f e.2).map fun result => .execution e.1 result t

namespace EvaRuntime

variable (host : Host) (env : EvaEnv)

/-! ## Permits -/

variable (s : EvaRuntime)

def active : Bool :=
  s.permit.isSome && s.leaseUntil.any (fun t => env.now < t) && !env.uiLocked && !env.monitorLocks && env.running

def cancel (reason : String) : EvaRuntime × List EvaEvent :=
  ({ s with permit := none, leaseUntil := none, confirmation := none, state := "idle", statusTurnEpoch := none },
    (s.permit.map (EvaEvent.cancelled reason)).toList)

def updateWakeRequested (enabled retireGeneration : Bool) : EvaRuntime :=
  if s.wakeRequested == enabled && !retireGeneration then s
  else
    { s with
        wakeRequested := enabled
        wakeGeneration := min (s.wakeGeneration + 1) (2 ^ 64 - 1)
        wakeLeaseUntil := if enabled then some (env.now + 10 * 10 ^ 9)
          else if s.wakeMicrophoneActive then some (env.now + lease) else none }

/-! ## The tick -/

def tickStandby : EvaRuntime :=
  let s := { s with standbyAllowed := env.running && !(env.compositorLocked || env.uiLocked || env.monitorLocks) &&
    env.supportsOverlay && (env.presentable env.selMon).isSome }
  if s.wakeRequested && !s.standbyAllowed then s.updateWakeRequested env false false else s

def tickPresentation : EvaRuntime :=
  if s.wakeRequested && !s.active env then
    { s with presentationMonitor := env.presentable (s.presentationMonitor.or env.selMon) }
  else s

def tickWakeLease : EvaRuntime :=
  if s.wakeLeaseUntil.any (fun t => t ≤ env.now) then
    let s := ({ s with wakeLeaseUntil := none }).updateWakeRequested env false false
    let s := { s with wakeMicrophoneActive := false }
    if !s.active env then { s with state := "error" } else s
  else s

/-- The permit goes with its overlay, at a lock, and with its lease. -/
def tickPermit : EvaRuntime × List EvaEvent :=
  let (s, overlay) :=
    if s.permit.isSome then
      let monitor := env.presentable (s.presentationMonitor.or s.activationMonitor)
      if !env.supportsOverlay || monitor.isNone then s.cancel "overlay_unavailable"
      else ({ s with presentationMonitor := monitor }, [])
    else (s, [])
  let (s, locked) := if s.permit.isSome && env.compositorLocked then s.cancel "session_locked" else (s, [])
  if s.permit.isSome && !s.active env then
    let lostLease := !env.uiLocked && !env.monitorLocks && env.running
    let (s, lost) := s.cancel (if lostLease then "lease_expired" else "session_locked_or_exiting")
    (if lostLease then { s with state := "error" } else s, overlay ++ locked ++ lost)
  else (s, overlay ++ locked)

def tickConfirmation : EvaRuntime × List EvaEvent :=
  match s.confirmation with
  | some c =>
    if c.expires ≤ env.now ∧ c.expiryReported = false then
      ({ s with
          confirmation := some { c with expiryReported := true, approved := false }
          state := if s.state = "confirming" then "error" else s.state }, [.confirmationExpired])
    else (s, [])
  | none => (s, [])

def observed (op : Operation) : Option OperationResult :=
  if op.terminal then none
  else if (env.uiLocked || env.compositorLocked) && ((op.request.index "action").index "name").asStr == some "lock_screen" then
    some { op.result with status := "succeeded", completion := some "session_lock_observed" }
  else if !op.clipboardReceipt then none
  else
    match env.receipt op.result.operationId with
    | .pending => none
    | .owned => some { op.result with status := "succeeded", completion := some "native_clipboard_ownership_observed" }
    | .failed => some { op.result with status := "failed", completion := some "native_clipboard_offer_failed" }

def overdue (op : Operation) : Operation :=
  if !op.terminal && op.result.status == "accepted" && op.expires - retention + completionDeadline ≤ env.now then
    { op with result := { op.result with status := "unknown", error := some "completion_deadline_elapsed" } }
  else op

def tickOperations : EvaRuntime × List EvaEvent :=
  let operations := s.operations.mapValues fun op => overdue env (op.close env.now (observed env op))
  ({ s with operations := operations.retain fun _ op => !op.terminal || env.now < op.expires },
    executions s.operations (observed env) env.now)

def tick : EvaRuntime × List EvaEvent :=
  let (s, permit) := (((s.tickStandby env).tickPresentation env).tickWakeLease env).tickPermit env
  let (s, confirmation) := s.tickConfirmation env
  let (s, operations) := s.tickOperations env
  (s, permit ++ confirmation ++ operations)

/-! ## Control -/

def finishSession (args : Json) : EvaRuntime × List EvaEvent × Response :=
  let (s, events) := s.tick env
  let permit := (args.get "assistant_permit").bind AssistantPermit.parse
  if !s.active env || permit.isNone || permit ≠ s.permit || (args.index "wm_instance_id").asStr ≠ some host.wmInstance then
    (s, events, .err "assistant_finish_session_stale")
  else
    match (args.index "disable_wake").asBool with
    | none => (s, events, .err "plan_invalid: disable_wake must be boolean")
    | some disableWake =>
      if disableWake && (args.index "wake_generation").asU64 != some s.wakeGeneration then
        (s, events, .err "assistant_wake_generation_mismatch")
      else
        let s := if disableWake then s.updateWakeRequested env false true else s
        let (s, cancelled) := s.cancel "voice_session_finished"
        (s, events ++ cancelled, .ok none)

/-- The monitor the wake word was heard on, where the call names one. -/
def wakeSource (args : Json) : Except String (Option Nat) :=
  if (args.get "source_monitor_token").isNone && (args.get "source_onset_monotonic_ns").isNone then .ok none
  else
    match (args.index "source_monitor_token").asStr with
    | none => .error "assistant_wake_source_monitor_missing"
    | some source =>
      match (args.index "source_onset_monotonic_ns").asU64.filter (· ≤ env.monotonicNs) with
      | none => .error "assistant_wake_source_onset_invalid"
      | some onset =>
        let atOnset := (env.monitorHistory.reverse.find? fun h => h.1 ≤ onset).bind Prod.snd
        let ambiguous := env.monitorHistory.any fun h =>
          onset - 1000000 < h.1 && h.1 ≤ min (onset + 1000000) (2 ^ 64 - 1)
        if atOnset ≠ some source || ambiguous then .error "assistant_wake_source_monitor_unproven"
        else
          match env.resolveMonitor source with
          | none => .error "assistant_wake_source_monitor_gone"
          | some monitor =>
            if env.monitorLocked monitor || env.presentable (some monitor) ≠ some monitor then
              .error "assistant_wake_source_monitor_unavailable"
            else .ok (some monitor)

def activate (source : Option Nat) : EvaRuntime × List EvaEvent × Response :=
  if !env.supportsOverlay || (env.presentable env.selMon).isNone then (s, [], .err "assistant_overlay_unavailable")
  else if env.uiLocked || env.monitorLocks || env.compositorLocked then (s, [], .err "session_locked")
  else
    let (s, replaced) := s.cancel "replaced"
    if s.generation + 1 ≥ 2 ^ 64 then (s, replaced, .err "generation_exhausted")
    else
      let generation := s.generation + 1
      let presentation := env.presentable env.selMon
      let permit : AssistantPermit :=
        { assistantSessionId := host.wmInstance ++ "-" ++ toString generation, generation }
      ({ s with
          generation, permit := some permit, leaseUntil := some (env.now + lease), state := "connecting"
          activationMonitor := source.or ((env.selMon.filter env.hasMonitor).or presentation)
          presentationMonitor := presentation }, replaced ++ [.activated permit], .ok none)

/-- `toggle`, `activate` and `cancel`. -/
def controlSession (action : String) (source : Option Nat) : EvaRuntime × List EvaEvent × Response :=
  if action = "cancel" || (action = "toggle" && s.active env) then
    let (s, cancelled) := s.cancel "user_cancelled"
    (s, cancelled, .ok none)
  else s.activate host env source

def wakeActivate (args : Json) : EvaRuntime × List EvaEvent × Response :=
  let (s, events) := s.tick env
  if !s.wakeRequested || !s.standbyAllowed || s.active env ||
      (args.index "wake_generation").asU64 ≠ some s.wakeGeneration ||
      (args.index "assistant_generation").asU64 ≠ some s.generation ||
      (args.index "wm_instance_id").asStr ≠ some host.wmInstance then
    (s, events, .err "assistant_wake_activation_stale")
  else
    match wakeSource env args with
    | .error e => (s, events, .err e)
    | .ok source =>
      let (s, activated, response) := s.controlSession host env "activate" source
      (s, events ++ activated, response)

/-- `wake_toggle`, `wake_enable` and `wake_disable`. -/
def controlWake (action : String) (args : Json) : EvaRuntime × List EvaEvent × Response :=
  let (s, events) := s.tick env
  if action = "wake_disable" &&
      (["wm_instance_id", "wake_generation", "assistant_generation"].any fun field => (args.get field).isSome) &&
      ((args.index "wm_instance_id").asStr ≠ some host.wmInstance ||
        (args.index "wake_generation").asU64 ≠ some s.wakeGeneration ||
        (args.index "assistant_generation").asU64 ≠ some s.generation) then
    (s, events, .err "assistant_wake_control_stale")
  else
    let enabled := action = "wake_enable" || (action = "wake_toggle" && !s.wakeRequested)
    if enabled && !s.standbyAllowed then (s, events, .err "assistant_standby_unavailable")
    else
      let s := s.updateWakeRequested env enabled (action = "wake_enable")
      let s := if enabled && !s.active env then
        { s with presentationMonitor := env.presentable (s.presentationMonitor.or env.selMon) } else s
      (s, events, .ok none)

def control (args : Json) : EvaRuntime × List EvaEvent × Response :=
  match (args.get "action").bind asStr with
  | none => (s, [], .err "plan_invalid: missing assistant action")
  | some action =>
    if action = "finish_session" then s.finishSession host env args
    else if action = "wake_activate" then s.wakeActivate host env args
    else if ["wake_toggle", "wake_enable", "wake_disable"].contains action then s.controlWake host env action args
    else if !(["toggle", "activate", "cancel"].contains action) then
      (s, [], .err "plan_invalid: unsupported assistant action")
    else s.controlSession host env action none

end EvaRuntime

/-! ## Status -/

def statusStates : List String :=
  ["connecting", "listening", "planning", "confirming", "executing", "responding", "follow_up", "followup", "closing",
    "error", "idle"]

def uiErrorCode (args : Json) : Except String (Option String) :=
  match args.get "error_code" with
  | none | some .null => .ok none
  | some (.string code) =>
    if !code.isEmpty && code.utf8ByteSize ≤ 64 &&
        (code.toList.all fun c => ('a' ≤ c && c ≤ 'z') || ('0' ≤ c && c ≤ '9') || c == '_') then .ok (some code)
    else .error "plan_invalid: error code"
  | some _ => .error "plan_invalid: error code"

def uiRetryable (args : Json) : Except String (Option Bool) :=
  match args.get "retryable" with
  | none | some .null => .ok none
  | some (.bool value) => .ok (some value)
  | some _ => .error "plan_invalid: retryable"

structure TaskProgress where
  completed : Nat
  total : Nat
  currentStep : Nat
  action : String
  stage : String
deriving DecidableEq

def TaskProgress.parse (v : Json) : Option TaskProgress := do
  let fields ← structFields ["completed", "total", "current_step", "action", "stage"] v
  let completed ← asUpTo 255 (← field fields "completed")
  let total ← asUpTo 255 (← field fields "total")
  let currentStep ← asUpTo 255 (← field fields "current_step")
  let action ← (← field fields "action").asStr
  let stage ← (← field fields "stage").asStr
  some { completed, total, currentStep, action, stage }

def TaskProgress.valid (host : Host) (p : TaskProgress) : Bool :=
  1 ≤ p.total && p.total ≤ maxActionsPerPlan && p.completed ≤ p.total && 1 ≤ p.currentStep && p.currentStep ≤ p.total &&
    p.completed ≤ p.currentStep &&
    (!(["preparing", "executing", "verifying"].contains p.stage) || p.completed + 1 == p.currentStep) &&
    (p.stage != "succeeded" || p.completed == p.total) &&
    ["preparing", "executing", "verifying", "succeeded", "partial", "unknown", "failed", "cancelled"].contains p.stage &&
    (host.riskClass p.action).isSome

def resultPhase (state : String) : Bool := ["responding", "follow_up", "followup"].contains state

def checkStatus (host : Host) (s : EvaRuntime) (args : Json) (state : String) : Except String Unit :=
  let incomingTurn := (args.index "turn_epoch").asU64
  let result := match args.get "result_status" with
    | some (.string value) => resultPhase state && incomingTurn.isSome &&
        ["succeeded", "partial", "clarify", "noop", "unknown", "failed", "cancelled"].contains value
    | some .null | none => true
    | some _ => false
  let voice := match args.get "voice_fallback" with
    | some (.bool false) | some .null | none => true
    | some (.bool true) => resultPhase state && incomingTurn.isSome
    | some _ => false
  if !statusStates.contains state then .error "plan_invalid: invalid assistant state"
  else if (incomingTurn.bind fun new => s.statusTurnEpoch.map fun old => decide (new < old)) == some true then
    .error "assistant_status_turn_stale"
  else if !result then .error "plan_invalid: result status"
  else if !voice then .error "plan_invalid: voice fallback"
  else do
    let errorCode ← uiErrorCode args
    let retryable ← uiRetryable args
    if state ≠ "error" && (errorCode.isSome || retryable.isSome) then .error "plan_invalid: error metadata state"
    match args.get "task_progress" with
    | none | some .null => .ok ()
    | some progress =>
      if incomingTurn.isNone || (TaskProgress.parse progress).map (·.valid host) ≠ some true then .error "plan_invalid: task progress"
      else if !(["planning", "executing", "responding", "error"].contains state) then
        .error "plan_invalid: task progress state"
      else .ok ()

def checkDetails (env : EvaEnv) (args : Json) (state : String) : Except String Unit :=
  let deadline := match args.get "followup_deadline_monotonic_ns" with
    | none | some .null => true
    | some value => value.asU64.any fun deadline =>
        env.monotonicNs ≠ 0 && deadline ≤ min (env.monotonicNs + 600000000000) (2 ^ 64 - 1)
  let flag := fun name => match args.get name with
    | some (.bool _) | none => true
    | some _ => false
  if ["follow_up", "followup"].contains state && !deadline then .error "plan_invalid: follow-up deadline"
  else if !flag "microphone_active" then .error "plan_invalid: microphone_active must be boolean"
  else if !flag "undo_available" then .error "plan_invalid: undo_available must be boolean"
  else
    match args.get "input_caption" with
    | none | some .null => .ok ()
    | some value =>
      if ((value.index "item_id").asStr.filter fun s => !s.isEmpty && s.utf8ByteSize ≤ 256).isNone then
        .error "plan_invalid: caption item"
      else if (value.index "turn_epoch").asU64.isNone then .error "plan_invalid: caption turn"
      else if (value.index "text").asStr.isNone then .error "plan_invalid: caption text"
      else .ok ()

/-- The actions a confirmation may freeze, and how long it lasts in milliseconds. -/
def checkConfirmation (host : Host) (request : Json) : Except String (String × Json × List Json × Nat) :=
  match ((request.get "plan_hash").bind asStr).filter boundedIdentifier with
  | none => .error "plan_invalid: confirmation hash"
  | some hash =>
    let targets := (request.get "targets").getD .null
    if host.bytes targets > maxRequestBytes then .error "plan_invalid: confirmation too large"
    else
      match targets.asArray.filter fun actions => !actions.isEmpty && actions.length ≤ maxActionsPerPlan with
      | none => .error "plan_invalid: confirmation must contain 1..32 actions"
      | some actions => do
        for action in actions do
          match Action.parse action with
          | none => throw "plan_invalid: malformed confirmation action"
          | some action =>
            match host.validateExecutionAction action with
            | .error error => throw ("plan_invalid: confirmation action: " ++ error)
            | .ok () => pure ()
        match request.get "timeout_ms" with
        | none => .ok (hash, targets, actions, 15000)
        | some value =>
          match value.asU64.filter fun value => 1000 ≤ value && value ≤ 600000 with
          | some timeout => .ok (hash, targets, actions, timeout)
          | none => .error "plan_invalid: confirmation timeout must be 1000..600000 ms"

namespace EvaRuntime

variable (host : Host) (env : EvaEnv)

/-- A confirmation is frozen unless the same one already stands. -/
def freeze (s : EvaRuntime) (request : Json) : EvaRuntime × List EvaEvent × Except String Unit :=
  match checkConfirmation host request with
  | .error e => (s, [], .error e)
  | .ok (hash, targets, actions, timeout) =>
    if s.confirmation.any fun c => c.planHash == hash && c.targets == targets then (s, [], .ok ())
    else
      let s := { s with confirmationGeneration := min (s.confirmationGeneration + 1) (2 ^ 64 - 1) }
      let restore := if actions.any fun a => (a.index "name").asStr == some "restore_session" then
        env.loadRestore.map some else .ok none
      match restore with
      | .error e => (s, [], .error e)
      | .ok restoreSnapshot =>
        let expires := env.now + timeout * 10 ^ 6
        ({ s with
            confirmation := some
              { expiryReported := false
                token := "confirm-" ++ toString s.generation ++ "-" ++ toString s.confirmationGeneration ++ "-" ++ host.sessionId
                planHash := hash, targets, expires, approved := false, used := List.replicate actions.length false
                restoreSnapshot, restoreWindows := (restoreSnapshot.map env.restoreMatching).getD []
                restoreMonitors := env.monitorTokens } }, [.frozen targets expires], .ok ())

/-- The end of a status: an expired confirmation shows, and the lease is renewed. -/
def renew (s : EvaRuntime) : EvaRuntime :=
  let s := if s.state = "confirming" && s.confirmation.any (fun c => c.expires ≤ env.now) then { s with state := "error" } else s
  { s with leaseUntil := some (env.now + lease) }

/-- The confirmation a status carries, and the new lease. -/
def carryStatus (s : EvaRuntime) (args : Json) : EvaRuntime × List EvaEvent × Response :=
  match args.get "confirmation" with
  | none => (s.renew env, [], .ok none)
  | some request =>
    match s.freeze host env request with
    | (s, events, .error e) => (s, events, .err e)
    | (s, events, .ok ()) => (s.renew env, events, .ok none)

def applyStatus (s : EvaRuntime) (args : Json) (state : String) : EvaRuntime × List EvaEvent × Response :=
  if state = "idle" ∨ state = "closing" then
    let (s, cancelled) := s.cancel "daemon_closed"
    (s, cancelled, .ok none)
  else
    match checkDetails env args state with
    | .error e => (s, [], .err e)
    | .ok () => ({ s with state }).carryStatus host env args

def setStatus (s : EvaRuntime) (args : Json) : EvaRuntime × List EvaEvent × Response :=
  if !s.active env then
    let (s, events) := s.tick env
    (s, events, .err "assistant_permit_expired")
  else if (args.get "assistant_permit").bind AssistantPermit.parse ≠ s.permit then
    (s, [], .err "assistant_permit_mismatch")
  else
    let state := ((args.get "state").bind asStr).getD s.state
    match checkStatus host s args state with
    | .error e => (s, [], .err e)
    | .ok () => ({ s with statusTurnEpoch := ((args.index "turn_epoch").asU64).or s.statusTurnEpoch }).applyStatus host env args state

/-- `eva_confirm`, where the panel shows the whole confirmation to be reviewed or not. -/
def confirm (s : EvaRuntime) (reviewable : Bool) : EvaRuntime × List EvaEvent × Bool :=
  if !s.active env || s.state ≠ "confirming" || !reviewable then (s, [], false)
  else
    match s.confirmation with
    | some c =>
      if !c.approved && env.now < c.expires then
        ({ s with confirmation := some { c with approved := true } }, [.confirmed c.token c.planHash s.permit env.now], true)
      else (s, [], false)
    | none => (s, [], false)

end EvaRuntime

/-! ## Guarded execution -/

/-- The outcome of a dispatch: what it answers, whether it waits for a clipboard receipt, the accepted operations that
its events complete meanwhile, and when it returns. -/
structure Outcome where
  result : Except String (String × Json)
  receipt : Bool
  completes : List String
  done : Nat

def Outcome.answer (o : Outcome) (operationId : String) : OperationResult :=
  match o.result with
  | .ok (status, verified) => { operationId, status, verified := some verified, error := none, completion := none }
  | .error error => { operationId, status := "failed", verified := none, error := some error, completion := none }

def OperationResult.ended (r : OperationResult) : Bool := r.status != "accepted" && r.status != "unknown"

inductive Precheck where
  | refused (code : String)
  | crash
  | request (req : GuardedRequest)
deriving DecidableEq

/-- The checks that only the request and the instance decide. -/
def precheck (host : Host) (args : Json) : Precheck :=
  if host.bytes args > maxRequestBytes then .refused "plan_invalid: request too large"
  else
    match GuardedRequest.parse args with
    | none => .refused "plan_invalid: malformed guarded request"
    | some req =>
      if req.protocolVersion ≠ 1 ∨ req.wmInstanceId ≠ host.wmInstance then
        .refused "version_incompatible_or_wm_instance_mismatch"
      else if !boundedIdentifier req.operationId || !boundedIdentifier req.requestDigest then
        .refused "plan_invalid: invalid operation identity"
      else
        match args with
        | .object fields =>
          if host.digest (.object (fields.filter fun f => f.1 ≠ "request_digest")) ≠ req.requestDigest then
            .refused "request_digest_mismatch"
          else .request req
        | _ => .crash

/-- Whether the context the request expects is the one it finds. -/
def checkContext (env : EvaEnv) (expected : ExpectedContext) : Except String Unit :=
  if !expected.sessionUnlocked then .error "session_locked"
  else if expected.focusToken.isSome && env.focusToken ≠ expected.focusToken then .error "stale_context: focus changed"
  else
    match expected.monitorToken with
    | some token =>
      match env.resolveMonitor token with
      | none => .error "target_gone: monitor"
      | some m =>
        if env.monitorLocked m then .error "session_locked"
        else if expected.visibleTagMask.any fun mask => env.activeTags m ≠ mask then
          .error "stale_context: visible tags changed"
        else .ok ()
    | none =>
      if expected.visibleTagMask.isSome then .error "plan_invalid: tag condition requires monitor" else .ok ()

/-- A close without its expected state among several actions. -/
def legacyClose (c : Confirmation) : Bool :=
  c.targets.asArray.any fun actions => actions.length ≠ 1 && actions.any fun action =>
    (action.index "name").asStr == some "killclient" && !((action.index "arguments").index "expected_state").isObject

/-- The first position of the frozen targets that is the action and has not been used. -/
def freePosition (c : Confirmation) (action : Action) : Option Nat :=
  c.targets.asArray.bind fun actions =>
    (List.range actions.length).find? fun i => !(c.used[i]?).getD true && actions[i]? == some action.toJson

def sensitive (host : Host) (action : Action) : Bool := host.riskClass action.name == some "confirmation"

namespace EvaRuntime

variable (host : Host) (env : EvaEnv)

/-- The position of the confirmation a sensitive action uses. -/
def confirmedPosition (s : EvaRuntime) (req : GuardedRequest) : Option Nat :=
  (s.confirmation.filter fun c => c.approved && env.now < c.expires && req.confirmationToken == some c.token).bind fun c =>
    freePosition c req.action

def checkAction (s : EvaRuntime) (req : GuardedRequest) : Except String (Option Nat) :=
  if s.operations.entries.length ≥ maxOperations then .error "execution_capacity_exhausted"
  else
    match host.validateExecutionAction req.action with
    | .error error => .error ("plan_invalid: " ++ error)
    | .ok () =>
      match env.checkUndoState req.action with
      | .error error => .error error
      | .ok () =>
        if s.confirmation.any legacyClose then
          .error "unsupported_action: legacy close requires single-action confirmation"
        else
          let position := if sensitive host req.action then s.confirmedPosition env req else none
          if sensitive host req.action && position.isNone then .error "confirmation_required"
          else if req.action.name = "restore_session" then
            match s.confirmation.bind fun c => c.restoreSnapshot.map fun snapshot => (c, snapshot) with
            | none => .error "confirmation_required"
            | some (c, snapshot) =>
              if env.restoreMatching snapshot ≠ c.restoreWindows ∨ env.monitorTokens ≠ c.restoreMonitors then
                .error "stale_context: restore scope changed after confirmation"
              else .ok position
          else .ok position

def reserve (s : EvaRuntime) (req : GuardedRequest) (args : Json) (position : Option Nat) : EvaRuntime :=
  { s with
      operations := s.operations.insert req.operationId
        { digest := req.requestDigest, request := args, expires := env.now + retention, terminal := false
          result := { operationId := req.operationId, status := "in_flight", verified := none, error := none
                      completion := none }
          clipboardReceipt := false }
      confirmation := match position with
        | some index => s.confirmation.map fun c => { c with used := c.used.set index true }
        | none => s.confirmation }

/-- What an event during a dispatch completes an accepted operation with. -/
def completed (o : Outcome) (op : Operation) : Option OperationResult :=
  if !op.terminal && op.result.status == "accepted" && o.completes.contains op.result.operationId then
    some { op.result with status := "succeeded" }
  else none

def settleDispatch (s : EvaRuntime) (operationId : String) (o : Outcome) : EvaRuntime × List EvaEvent :=
  let answer := o.answer operationId
  ({ s with
      operations := (s.operations.mapValues fun op => op.close o.done (completed o op)).modify operationId fun op =>
        { op with clipboardReceipt := o.receipt, terminal := answer.ended, result := answer } },
    executions s.operations (completed o) o.done ++ [.returned operationId answer o.done])

def guardedExecute (s : EvaRuntime) (args : Json) (o : Outcome) : EvaRuntime × List EvaEvent × Response :=
  match precheck host args with
  | .refused code => (s, [], .err code)
  | .crash => (s, [], .crash)
  | .request req =>
    match s.operations.get? req.operationId with
    | some old =>
      if old.digest = req.requestDigest ∧ old.request = args then (s, [], .ok (some old.result))
      else (s, [], .err "operation_id_conflict")
    | none =>
      let (s, events) := s.tick env
      if !s.active env || s.permit ≠ some req.assistantPermit then (s, events, .err "assistant_permit_expired")
      else
        match checkContext env req.expectedContext with
        | .error e => (s, events, .err e)
        | .ok () =>
          match s.checkAction host env req with
          | .error e => (s, events, .err e)
          | .ok position =>
            let dispatch : Dispatch :=
              { operationId := req.operationId, request := args, permit := req.assistantPermit, action := req.action
                position, time := env.now }
            let (s, settled) := (s.reserve env req args position).settleDispatch req.operationId o
            (s, events ++ .dispatched dispatch :: settled, .ok (some (o.answer req.operationId)))

end EvaRuntime

/-! ## Calls -/

inductive EvaCall where
  | control (env : EvaEnv) (args : Json)
  | setStatus (env : EvaEnv) (args : Json)
  | confirm (env : EvaEnv) (reviewable : Bool)
  | tick (env : EvaEnv)
  | guardedExecute (env : EvaEnv) (args : Json) (outcome : Outcome)

inductive EvaAnswer where
  | response (r : Response)
  | confirmed (b : Bool)
  | done

def EvaRuntime.step (host : Host) (s : EvaRuntime) : EvaCall → EvaRuntime × List EvaEvent × EvaAnswer
  | .control env args => let (s, events, r) := s.control host env args; (s, events, .response r)
  | .setStatus env args => let (s, events, r) := s.setStatus host env args; (s, events, .response r)
  | .confirm env reviewable => let (s, events, b) := s.confirm env reviewable; (s, events, .confirmed b)
  | .tick env => let (s, events) := s.tick env; (s, events, .done)
  | .guardedExecute env args o => let (s, events, r) := s.guardedExecute host env args o; (s, events, .response r)

end Jwm.Authority
