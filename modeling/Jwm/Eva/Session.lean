/-
The voice session (`jwm_eva_core/src/session.rs`): its state, the session and turn epochs, the permit, the deadline
of the follow-up and the speech candidate that may outlive it. Callers supply the time in milliseconds; epochs wrap
and times saturate as `u64` does.
-/
import Jwm.Data.KeySum
import Jwm.Data.Run

namespace Jwm.Eva

inductive State where
  | idle | connecting | listening | planning | confirming | executing | responding | followUp | closing | error
deriving DecidableEq

/-- The limits in milliseconds, with their defaults. -/
structure Limits where
  connectMs : Nat := 8000
  firstSpeechMs : Nat := 8000
  utteranceMs : Nat := 20000
  planMs : Nat := 12000
  confirmationMs : Nat := 15000
  followUpMs : Nat := 5000
  startGraceMs : Nat := 1500
  sessionMs : Nat := 300000
deriving DecidableEq

structure AssistantPermit where
  assistantSessionId : String
  generation : Nat
deriving DecidableEq

structure Session where
  state : State
  sessionEpoch : Nat
  turnEpoch : Nat
  permit : Option AssistantPermit
  limits : Limits
  closeReason : Option String
  startedAt : Nat
  enteredAt : Nat
  speechAt : Option Nat
  followUpDeadline : Option Nat
  /-- When the speech was captured, and until when it holds off the end of the follow-up. -/
  candidate : Option (Nat × Nat)
  planClaimed : Bool
deriving DecidableEq

def wrappingSucc (n : Nat) : Nat := (n + 1) % 2 ^ 64

namespace Session

def new (limits : Limits) : Session where
  state := .idle
  sessionEpoch := 0
  turnEpoch := 0
  permit := none
  limits := limits
  closeReason := none
  startedAt := 0
  enteredAt := 0
  speechAt := none
  followUpDeadline := none
  candidate := none
  planClaimed := false

variable (s : Session)

def enter (state : State) (now : Nat) : Session := { s with state := state, enteredAt := now }

def activate (permit : AssistantPermit) (now : Nat) : Session × Except String Nat :=
  if s.state ≠ .idle then (s, .error "session_already_active")
  else
    let s := { s with
      sessionEpoch := wrappingSucc s.sessionEpoch
      turnEpoch := wrappingSucc s.turnEpoch
      permit := some permit
      startedAt := now }
    let s := s.enter .connecting now
    ({ s with closeReason := none, speechAt := none, candidate := none, planClaimed := false }, .ok s.sessionEpoch)

/-- `matches`: whether a call that carries these epochs is about the present. -/
def isMatch (epoch turn : Nat) : Bool :=
  s.sessionEpoch == epoch && s.turnEpoch == turn && s.permit.isSome &&
    !(s.state == .idle || s.state == .closing || s.state == .error)

def ready (epoch now : Nat) : Session × Bool :=
  if !s.isMatch epoch s.turnEpoch || s.state ≠ .connecting then (s, false) else (s.enter .listening now, true)

def uploadAllowed : Bool := s.state == .listening || s.state == .followUp

def executionAllowed : Bool := s.state == .executing && s.permit.isSome

/-- Whether speech captured then comes too late for the follow-up. -/
def tooLate (captured : Nat) : Bool :=
  s.state == .followUp && s.followUpDeadline.all fun d => captured > d

def localSpeechCandidate (epoch capturedAt now : Nat) : Session × Bool :=
  if !s.isMatch epoch s.turnEpoch || !s.uploadAllowed || s.candidate.isSome then (s, false)
  else if s.tooLate capturedAt then (s, false)
  -- a single candidate can postpone expiry only once
  else ({ s with candidate := some (capturedAt, saturatingAdd now s.limits.startGraceMs) }, true)

def captured (now : Nat) : Nat := ((s.candidate.filter fun c => now ≤ c.2).map Prod.fst).getD now

def speechStarted (epoch now : Nat) : Session × Bool :=
  if !s.isMatch epoch s.turnEpoch || !s.uploadAllowed then (s, false)
  else
    let captured := s.captured now
    -- the candidate is taken here, also when the speech is then refused
    let s := { s with candidate := none }
    if s.tooLate captured then (s, false)
    else
      let s :=
        if s.state = .followUp then
          { s with turnEpoch := wrappingSucc s.turnEpoch, planClaimed := false }.enter .listening now
        else s
      ({ s with speechAt := some captured, followUpDeadline := none }, true)

def inputCommitted (epoch turn now : Nat) : Session × Bool :=
  if !s.isMatch epoch turn || s.state ≠ .listening || s.speechAt.isNone then (s, false) else (s.enter .planning now, true)

def claimPlan (epoch turn : Nat) (confirmation : Bool) (now : Nat) : Session × Bool :=
  if !s.isMatch epoch turn || s.state ≠ .planning || s.planClaimed then (s, false)
  else ({ s with planClaimed := true }.enter (if confirmation then .confirming else .executing) now, true)

def confirm (epoch turn now : Nat) : Session × Bool :=
  if !s.isMatch epoch turn || s.state ≠ .confirming || now - s.enteredAt > s.limits.confirmationMs then (s, false)
  else (s.enter .executing now, true)

def respond (epoch turn now : Nat) : Session × Bool :=
  if !s.isMatch epoch turn || !(s.state == .planning || s.state == .executing) then (s, false)
  else (s.enter .responding now, true)

def cancel (reason : String) (now : Nat) : Session :=
  { s with
    permit := none
    sessionEpoch := wrappingSucc s.sessionEpoch
    turnEpoch := wrappingSucc s.turnEpoch
    candidate := none
    speechAt := none
    followUpDeadline := none
    planClaimed := true
    closeReason := some reason }.enter .closing now

def feedbackCompleted (epoch turn now : Nat) : Session × Bool :=
  if !s.isMatch epoch turn || s.state ≠ .responding then (s, false)
  else if now - s.startedAt ≥ s.limits.sessionMs then (s.cancel "session_timeout" now, true)
  else
    let s := s.enter .followUp now
    ({ s with
      followUpDeadline := some (saturatingAdd now s.limits.followUpMs), speechAt := none, candidate := none }, true)

def interrupt (epoch now : Nat) : Session × Bool :=
  if !s.isMatch epoch s.turnEpoch ||
      !(s.state == .planning || s.state == .confirming || s.state == .executing || s.state == .responding) then
    (s, false)
  else
    ({ s with
      turnEpoch := wrappingSucc s.turnEpoch
      planClaimed := false
      speechAt := none
      candidate := none
      followUpDeadline := none }.enter .listening now, true)

def closed (now : Nat) : Session :=
  if s.state = .closing ∨ s.state = .error then s.enter .idle now else s

def expiry (now : Nat) : Option String :=
  let elapsed := now - s.enteredAt
  match s.state with
  | .connecting => if elapsed ≥ s.limits.connectMs then some "connect_timeout" else none
  | .listening =>
    if s.speechAt.isNone && elapsed ≥ s.limits.firstSpeechMs then some "first_speech_timeout"
    else if s.speechAt.any fun start => now - start ≥ s.limits.utteranceMs then some "utterance_too_long"
    else none
  | .planning => if elapsed ≥ s.limits.planMs then some "plan_timeout" else none
  | .confirming => if elapsed ≥ s.limits.confirmationMs then some "confirmation_expired" else none
  | .followUp =>
    if s.followUpDeadline.any fun d => now > saturatingAdd d 20 then
      if s.candidate.any fun c => now ≤ c.2 then none else some "follow_up_timeout"
    else none
  | _ => none

def tick (now : Nat) : Session × Option String :=
  match s.expiry now with
  | some reason => (s.cancel reason now, some reason)
  | none => (s, none)

end Session

/-! ## Calls -/

inductive SessionCall where
  | activate (permit : AssistantPermit) (now : Nat)
  | ready (epoch now : Nat)
  | localSpeechCandidate (epoch capturedAt now : Nat)
  | speechStarted (epoch now : Nat)
  | inputCommitted (epoch turn now : Nat)
  | claimPlan (epoch turn : Nat) (confirmation : Bool) (now : Nat)
  | confirm (epoch turn now : Nat)
  | respond (epoch turn now : Nat)
  | feedbackCompleted (epoch turn now : Nat)
  | interrupt (epoch now : Nat)
  | cancel (reason : String) (now : Nat)
  | closed (now : Nat)
  | tick (now : Nat)
deriving DecidableEq

inductive SessionAnswer where
  | activated (result : Except String Nat)
  | accepted (ok : Bool)
  | done
  | expired (reason : Option String)

namespace SessionCall

def epoch : SessionCall → Option Nat
  | .ready epoch _ | .localSpeechCandidate epoch _ _ | .speechStarted epoch _ | .inputCommitted epoch _ _
  | .claimPlan epoch _ _ _ | .confirm epoch _ _ | .respond epoch _ _ | .feedbackCompleted epoch _ _
  | .interrupt epoch _ => some epoch
  | .activate .. | .cancel .. | .closed _ | .tick _ => none

end SessionCall

def Session.step (s : Session) : SessionCall → Session × SessionAnswer
  | .activate permit now => let (s, result) := s.activate permit now; (s, .activated result)
  | .ready epoch now => let (s, ok) := s.ready epoch now; (s, .accepted ok)
  | .localSpeechCandidate epoch capturedAt now =>
    let (s, ok) := s.localSpeechCandidate epoch capturedAt now; (s, .accepted ok)
  | .speechStarted epoch now => let (s, ok) := s.speechStarted epoch now; (s, .accepted ok)
  | .inputCommitted epoch turn now => let (s, ok) := s.inputCommitted epoch turn now; (s, .accepted ok)
  | .claimPlan epoch turn confirmation now =>
    let (s, ok) := s.claimPlan epoch turn confirmation now; (s, .accepted ok)
  | .confirm epoch turn now => let (s, ok) := s.confirm epoch turn now; (s, .accepted ok)
  | .respond epoch turn now => let (s, ok) := s.respond epoch turn now; (s, .accepted ok)
  | .feedbackCompleted epoch turn now => let (s, ok) := s.feedbackCompleted epoch turn now; (s, .accepted ok)
  | .interrupt epoch now => let (s, ok) := s.interrupt epoch now; (s, .accepted ok)
  | .cancel reason now => (s.cancel reason now, .done)
  | .closed now => (s.closed now, .done)
  | .tick now => let (s, reason) := s.tick now; (s, .expired reason)

end Jwm.Eva
