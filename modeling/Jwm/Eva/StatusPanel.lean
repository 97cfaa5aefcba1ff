/-
The status panel of Eva (`jwm/eva.rs`): what `eva_set_status` shows under an active permit. Each refusal is placed among
the writes as in the source.
-/
import Jwm.Eva.AuthorityRuns
import Jwm.Features.AgentSessions
import Jwm.Ipc.IpcServer
import Mathlib.Logic.Relation

namespace Jwm.Authority

open Sample AssistantPermit Json EvaRuntime

/-- The runtime with what the panel shows of it. Levels are floats of type `F`. -/
@[ext]
structure StatusRuntime (F : Type) extends EvaRuntime where
  text : String
  resultStatus : Option String
  voiceFallback : Bool
  errorCode : Option String
  retryable : Option Bool
  level : F
  microphoneActive : Bool
  undoAvailable : Bool
  inputCaption : Option Json
  taskProgress : Option TaskProgress
  followupDeadlineNs : Option Nat
  followupTurnEpoch : Option Nat
  confirmationDetailPage : Option Nat
  confirmationSeenPages : List Nat

def isFollowup (state : String) : Bool := ["follow_up", "followup"].contains state

def turnEpoch (args : Json) : Option Nat := (args.index "turn_epoch").asU64

def flag (args : Json) (name : String) : Except String Bool :=
  match args.get name with
  | some (.bool value) => .ok value
  | none => .ok false
  | some _ => .error ("plan_invalid: " ++ name ++ " must be boolean")

/-- Whitespace becomes a space and control characters go. -/
def shownText (keep : Char → Bool) (limit : Nat) (text : String) : String :=
  .ofList (((text.toList.map fun c => if Ipc.isWhitespace c then ' ' else c).filter fun c =>
    !Features.isControl c && keep c).take limit)

/-- Not one of the marks that change the direction of the text. -/
def undirected (c : Char) : Bool :=
  let n := c.toNat
  !(n = 0x61c || n = 0x200e || n = 0x200f || (0x202a ≤ n && n ≤ 0x202e) || (0x2066 ≤ n && n ≤ 0x2069))

def caption (args : Json) : Except String (Option Json) :=
  match args.get "input_caption" with
  | none | some .null => .ok none
  | some value =>
    match (value.index "item_id").asStr.filter fun s => !s.isEmpty && s.utf8ByteSize ≤ 256 with
    | none => .error "plan_invalid: caption item"
    | some item =>
      match turnEpoch value with
      | none => .error "plan_invalid: caption turn"
      | some turn =>
        match (value.index "text").asStr with
        | none => .error "plan_invalid: caption text"
        | some text => .ok (some (.object [("item_id", .string item),
            ("text", .string (Ipc.trim (shownText undirected 160 text))), ("turn_epoch", .number (.pos turn))]))

namespace StatusRuntime

variable {F α : Type} (host : Host) (env : EvaEnv) (s : StatusRuntime F) (args : Json) (state : String)

/-! ## What a status says -/

def stateOf : String := ((args.get "state").bind asStr).getD s.state

def sameTurn : Bool := (turnEpoch args).isSome && turnEpoch args == s.statusTurnEpoch

/-- The result status of a status that passed its checks. -/
def resultStatusOf : Option String :=
  match args.get "result_status" with
  | some (.string value) => some value
  | some _ => none
  | none => if resultPhase state && s.sameTurn args then s.resultStatus else none

def voiceFallbackOf : Bool :=
  match args.get "voice_fallback" with
  | some (.bool value) => value
  | some _ => false
  | none => resultPhase state && s.sameTurn args && s.voiceFallback

def followupTurn : Option Nat := (turnEpoch args).or s.followupTurnEpoch

def sameFollowup : Bool := isFollowup s.state && s.followupTurn args == s.followupTurnEpoch

def followupDeadline : Except String (Option Nat) :=
  if isFollowup state then
    match args.get "followup_deadline_monotonic_ns" with
    | none | some .null => .ok (if s.sameFollowup args then s.followupDeadlineNs else none)
    | some value =>
      match value.asU64.filter fun deadline =>
          env.monotonicNs ≠ 0 && deadline ≤ min (env.monotonicNs + 600000000000) (2 ^ 64 - 1) with
      | none => .error "plan_invalid: follow-up deadline"
      | some deadline =>
        .ok (some (if s.sameFollowup args then s.followupDeadlineNs.elim deadline (min · deadline) else deadline))
  else .ok none

def textOf : String := ((args.get "text").bind asStr).elim s.text (shownText (fun _ => true) 240)

/-! ## The writes -/

def clearsProgress : Bool := ["connecting", "listening", "confirming", "follow_up", "followup", "error"].contains state

/-- The turn and its progress; a null progress reads as none. -/
def beginTurn : StatusRuntime F :=
  let s := if (turnEpoch args).isSome && turnEpoch args != s.statusTurnEpoch then
    { s with taskProgress := none, statusTurnEpoch := turnEpoch args } else s
  let s := if clearsProgress state then { s with taskProgress := none } else s
  match args.get "task_progress" with
  | none => s
  | some progress => { s with taskProgress := TaskProgress.parse progress }

/-- `eva_cancel`. -/
def close [Zero F] : StatusRuntime F :=
  { toEvaRuntime := (s.cancel "daemon_closed").1, text := "", resultStatus := none, voiceFallback := false, errorCode := none
    retryable := none, level := 0, microphoneActive := false, undoAvailable := false, inputCaption := none
    taskProgress := none, followupDeadlineNs := none, followupTurnEpoch := none, confirmationDetailPage := none
    confirmationSeenPages := [] }

def renewPanel : StatusRuntime F :=
  let expired := s.state = "confirming" && s.confirmation.any fun c => c.expires ≤ env.now
  { s with
      toEvaRuntime := s.toEvaRuntime.renew env
      text := if expired then "确认已超时，请重新发起操作" else s.text
      microphoneActive := s.microphoneActive && !expired }

/-- A confirmation that is frozen anew has no page seen. -/
def carryConfirmation : StatusRuntime F × Response :=
  match args.get "confirmation" with
  | none => (s.renewPanel env, .ok none)
  | some request =>
    match s.toEvaRuntime.freeze host env request with
    | (r, _, .error e) => ({ s with toEvaRuntime := r }, .err e)
    | (r, frozen, .ok ()) =>
      let s := { s with toEvaRuntime := r }
      let s := if frozen.isEmpty then s else { s with confirmationDetailPage := none, confirmationSeenPages := [] }
      (s.renewPanel env, .ok none)

def orRefuse (read : Except String α) (next : α → StatusRuntime F × Response) : StatusRuntime F × Response :=
  match read with
  | .error e => (s, .err e)
  | .ok a => next a

/-- `asLevel` reads a number and clamps it to the unit interval. -/
def display (asLevel : Json → Option F) (resultStatus : Option String) (voiceFallback : Bool) (deadline : Option Nat)
    (inputCaption : Option Json) : StatusRuntime F :=
  { s with
      inputCaption, resultStatus, voiceFallback
      errorCode := (uiErrorCode args).toOption.join
      retryable := (uiRetryable args).toOption.join
      state := state
      followupDeadlineNs := deadline
      followupTurnEpoch := if isFollowup state then s.followupTurn args else none
      text := s.textOf args
      level := ((args.get "level").bind asLevel).getD s.level }

def showStatus [Zero F] (asLevel : Json → Option F) (resultStatus : Option String) (voiceFallback : Bool) :
    StatusRuntime F × Response :=
  if state = "idle" ∨ state = "closing" then (s.close, .ok none)
  else
    s.orRefuse (s.followupDeadline env args state) fun deadline =>
      s.orRefuse (flag args "microphone_active") fun microphoneActive =>
        let s := { s with microphoneActive }
        s.orRefuse (flag args "undo_available") fun undoAvailable =>
          let s := { s with undoAvailable }
          s.orRefuse (caption args) fun inputCaption =>
            (s.display args state asLevel resultStatus voiceFallback deadline inputCaption).carryConfirmation host env args

/-- `eva_set_status` under an active permit. -/
def setStatus [Zero F] (asLevel : Json → Option F) : StatusRuntime F × Response :=
  if (args.get "assistant_permit").bind parse ≠ s.permit then (s, .err "assistant_permit_mismatch")
  else
    let state := s.stateOf args
    match checkStatus host s.toEvaRuntime args state with
    | .error e => (s, .err e)
    | .ok () =>
      (s.beginTurn args state).showStatus host env args state asLevel (s.resultStatusOf args state)
        (s.voiceFallbackOf args state)

/-! ## Refusals -/

/-- The turn and the progress a status names are those that stand. -/
def keepsTurn : Prop :=
  (turnEpoch args = none ∨ turnEpoch args = s.statusTurnEpoch) ∧
    match args.get "task_progress" with
    | some progress => TaskProgress.parse progress = s.taskProgress
    | none => clearsProgress state = true → s.taskProgress = none

/-- What a status shows beyond its turn, its flags and its caption stands. -/
def keepsDisplay (asLevel : Json → Option F) (deadline : Option Nat) : Prop :=
  s.resultStatusOf args state = s.resultStatus ∧ s.voiceFallbackOf args state = s.voiceFallback ∧
    (uiErrorCode args).toOption.join = s.errorCode ∧ (uiRetryable args).toOption.join = s.retryable ∧ state = s.state ∧
    deadline = s.followupDeadlineNs ∧ (if isFollowup state then s.followupTurn args else none) = s.followupTurnEpoch ∧
    s.textOf args = s.text ∧ ((args.get "level").bind asLevel).getD s.level = s.level

/-- Each value that a check admits before the refusal is the one that stands; where the confirmation itself is in order
(what it restores is not), the generation it counted was the last. -/
def keepsWritten (asLevel : Json → Option F) : Prop :=
  s.keepsTurn args state ∧
    ∀ deadline, s.followupDeadline env args state = .ok deadline →
      ∀ microphone, flag args "microphone_active" = .ok microphone → microphone = s.microphoneActive ∧
        ∀ undo, flag args "undo_available" = .ok undo → undo = s.undoAvailable ∧
          ∀ c, caption args = .ok c → c = s.inputCaption ∧ s.keepsDisplay args state asLevel deadline ∧
            ∀ request, args.get "confirmation" = some request → ∀ targets, checkConfirmation host request = .ok targets →
              s.confirmationGeneration = 2 ^ 64 - 1

/-- A refused status that leaves the runtime as it was. -/
def Traceless (asLevel : Json → Option F) : Prop :=
  let state := s.stateOf args
  (args.get "assistant_permit").bind parse ≠ s.permit ∨
    (∃ e, checkStatus host s.toEvaRuntime args state = .error e) ∨ s.keepsWritten host env args state asLevel

/-- What a status gives for its follow-up, its flags and its caption can be read. -/
def Readable : Prop :=
  (∃ deadline, s.followupDeadline env args state = .ok deadline) ∧ (∃ on, flag args "microphone_active" = .ok on) ∧
    (∃ on, flag args "undo_available" = .ok on) ∧ ∃ c, caption args = .ok c

/-- It passes every check that is made before the panel shows it. -/
def Shows : Prop :=
  (args.get "assistant_permit").bind parse = s.permit ∧
    checkStatus host s.toEvaRuntime args (s.stateOf args) = .ok () ∧ s.Readable env args (s.stateOf args)

/-- A status that is shown names no turn or the follow-up's own, or it gives a deadline no later than the one that stands. -/
def KeepsFollowup : Prop :=
  s.Shows host env args → turnEpoch args = none ∨ turnEpoch args = s.followupTurnEpoch ∨
    ∃ new, (args.get "followup_deadline_monotonic_ns").bind asU64 = some new ∧
      ∀ old, s.followupDeadlineNs = some old → new ≤ old

variable {s args state}

theorem beginTurn_eq : ∃ progress, s.beginTurn args state =
      { s with taskProgress := progress, statusTurnEpoch := (turnEpoch args).or s.statusTurnEpoch } ∧
    (progress = s.taskProgress ∧ (turnEpoch args).or s.statusTurnEpoch = s.statusTurnEpoch ↔ s.keepsTurn args state) := by
  unfold beginTurn keepsTurn
  cases args.get "task_progress" <;> cases hturn : turnEpoch args <;> cases clearsProgress state <;>
    by_cases hsame : turnEpoch args = s.statusTurnEpoch <;> simp_all [StatusRuntime.ext_iff] <;> exact eq_comm

theorem freeze_error {r : EvaRuntime} {request : Json} {events : List EvaEvent} {e : String} {s : EvaRuntime}
    (h : s.freeze host env request = (r, events, .error e)) :
    ∃ generation, r = { s with confirmationGeneration := generation } ∧
      (generation = s.confirmationGeneration ↔
        ∀ targets, checkConfirmation host request = .ok targets → s.confirmationGeneration = 2 ^ 64 - 1) := by
  unfold freeze at h
  cases hcheck : checkConfirmation host request with
  | error e' =>
    rw [hcheck] at h
    exact ⟨_, (congrArg Prod.fst h).symm, by simp⟩
  | ok c =>
    rw [hcheck] at h
    simp only at h
    split at h
    · simp at h
    · split at h
      · exact ⟨_, (congrArg Prod.fst h).symm, by simp; omega⟩
      · simp at h

variable {s' : StatusRuntime F} {code : String} {asLevel : Json → Option F} {β : Type} {result : Option String} {voice : Bool}

theorem carryConfirmation_error (h : s.carryConfirmation host env args = (s', .err code)) :
    ∃ generation, s' = { s with confirmationGeneration := generation } ∧
      (generation = s.confirmationGeneration ↔ ∀ request, args.get "confirmation" = some request →
        ∀ targets, checkConfirmation host request = .ok targets → s.confirmationGeneration = 2 ^ 64 - 1) := by
  unfold carryConfirmation at h
  cases hrequest : args.get "confirmation" with
  | none => rw [hrequest] at h; cases h
  | some request =>
    rw [hrequest] at h
    simp only at h
    split at h
    · rename_i hfreeze
      obtain ⟨generation, rfl, hgeneration⟩ := freeze_error host env hfreeze
      exact ⟨generation, (congrArg Prod.fst h).symm, by simpa using hgeneration⟩
    · cases h

theorem showStatus_eq_iff [Zero F] {progress : Option TaskProgress} {turn : Option Nat}
        (hturn : progress = s.taskProgress ∧ turn = s.statusTurnEpoch ↔ s.keepsTurn args state)
    (h : { s with taskProgress := progress, statusTurnEpoch := turn }.showStatus host env args state asLevel
      (s.resultStatusOf args state) (s.voiceFallbackOf args state) = (s', .err code)) :
    s' = s ↔ s.keepsWritten host env args state asLevel := by
  unfold showStatus at h
  unfold keepsWritten
  rw [← hturn]
  split at h
  · cases h
  generalize hstart : ({ s with taskProgress := progress, statusTurnEpoch := turn } : StatusRuntime F) = start at h
  have hdeadline : start.followupDeadline env args state = s.followupDeadline env args state := by rw [← hstart]; rfl
  rw [hdeadline] at h
  cases hd : s.followupDeadline env args state with
  | error e =>
    rw [hd] at h
    obtain ⟨rfl, -⟩ := Prod.mk.inj h
    simp [← hstart, StatusRuntime.ext_iff, and_comm]
  | ok deadline =>
    rw [hd] at h
    cases hm : flag args "microphone_active" with
    | error e =>
      simp only [orRefuse, hm] at h
      obtain ⟨rfl, -⟩ := Prod.mk.inj h
      simp [← hstart, StatusRuntime.ext_iff, and_comm]
    | ok microphone =>
      cases hu : flag args "undo_available" with
      | error e =>
        simp only [orRefuse, hm, hu] at h
        obtain ⟨rfl, -⟩ := Prod.mk.inj h
        simp [← hstart, StatusRuntime.ext_iff, and_comm, and_left_comm]
      | ok undo =>
        cases hc : caption args with
        | error e =>
          simp only [orRefuse, hm, hu, hc] at h
          obtain ⟨rfl, -⟩ := Prod.mk.inj h
          simp [← hstart, StatusRuntime.ext_iff, and_assoc, and_comm, and_left_comm]
        | ok c =>
          simp only [orRefuse, hm, hu, hc] at h
          obtain ⟨generation, rfl, hgeneration⟩ := carryConfirmation_error host env h
          rw [← hstart] at hgeneration ⊢
          simp only [display] at hgeneration
          simp only [StatusRuntime.ext_iff, keepsDisplay, display, textOf, followupTurn, Except.ok.injEq, forall_eq',
            ← hgeneration, true_and, and_true]
          grind

theorem setStatus_eq_iff [Zero F]
    (h : s.setStatus host env args asLevel = (s', .err code)) : s' = s ↔ s.Traceless host env args asLevel := by
  unfold setStatus at h
  unfold Traceless
  split at h
  · rename_i hpermit
    simp [← (Prod.mk.inj h).1, hpermit]
  · rename_i hpermit
    dsimp only at h
    cases hcheck : checkStatus host s.toEvaRuntime args (s.stateOf args) with
    | error e =>
      rw [hcheck] at h
      simp [← (Prod.mk.inj h).1, hcheck]
    | ok u =>
      rw [hcheck] at h
      obtain ⟨progress, hbegin, hturn⟩ := @beginTurn_eq F s args (s.stateOf args)
      dsimp only at h
      rw [hbegin] at h
      simp [showStatus_eq_iff host env hturn h, hpermit, hcheck]

/-! ## Runs -/

theorem renewPanel_frame : (s.renewPanel env).statusTurnEpoch = s.statusTurnEpoch ∧
    (s.renewPanel env).followupDeadlineNs = s.followupDeadlineNs ∧
      ((s.renewPanel env).state = s.state ∨ (s.renewPanel env).state = "error") := by
  simp only [renewPanel, renew, true_and]
  split
  · exact ⟨rfl, .inr rfl⟩
  · exact ⟨rfl, .inl rfl⟩

theorem freeze_frame (s : EvaRuntime) (request : Json) : (s.freeze host env request).1.statusTurnEpoch = s.statusTurnEpoch ∧
    (s.freeze host env request).1.state = s.state := by
  unfold freeze
  split
  · exact ⟨rfl, rfl⟩
  · split
    · exact ⟨rfl, rfl⟩
    · dsimp only
      split <;> exact ⟨rfl, rfl⟩

theorem carryConfirmation_frame : (s.carryConfirmation host env args).1.statusTurnEpoch = s.statusTurnEpoch ∧
    (s.carryConfirmation host env args).1.followupDeadlineNs = s.followupDeadlineNs ∧
      ((s.carryConfirmation host env args).1.state = s.state ∨ (s.carryConfirmation host env args).1.state = "error") := by
  unfold carryConfirmation
  split
  · exact renewPanel_frame env
  · rename_i request _
    obtain ⟨hturn, hstate⟩ := freeze_frame host env s.toEvaRuntime request
    split
    · rename_i hfreeze
      rw [hfreeze] at hturn hstate
      exact ⟨hturn, rfl, .inl hstate⟩
    · rename_i r frozen hfreeze
      rw [hfreeze] at hturn hstate
      have hrenew := @renewPanel_frame F env
        (if frozen.isEmpty then { s with toEvaRuntime := r } else
          { s with toEvaRuntime := r, confirmationDetailPage := none, confirmationSeenPages := [] })
      revert hrenew
      cases frozen.isEmpty <;> simp [← hturn, ← hstate]

/-- Short of a closing status the turn stays, and the deadline is the old one or, once all is read, the one the status
gives. -/
theorem showStatus_frame [Zero F] (h : (s.showStatus host env args state asLevel result voice).1 = s')
    (hopen : s'.permit ≠ none) : s'.statusTurnEpoch = s.statusTurnEpoch ∧
      (¬ s.Readable env args state ∧ s'.followupDeadlineNs = s.followupDeadlineNs ∨
        s.Readable env args state ∧ ∃ deadline, s.followupDeadline env args state = .ok deadline ∧
          s'.followupDeadlineNs = deadline ∧ (s'.state = state ∨ s'.state = "error")) := by
  unfold showStatus at h
  unfold Readable
  split at h
  · exact absurd (by rw [← h]; rfl) hopen
  · cases hd : s.followupDeadline env args state with
    | error e => rw [← h, hd]; exact ⟨rfl, .inl ⟨by simp, rfl⟩⟩
    | ok deadline => cases hm : flag args "microphone_active" with
      | error e => rw [← h, hd, hm]; exact ⟨rfl, .inl ⟨by simp, rfl⟩⟩
      | ok microphone => cases hu : flag args "undo_available" with
        | error e => rw [← h, hd, hm, hu]; exact ⟨rfl, .inl ⟨by simp, rfl⟩⟩
        | ok undo => cases hc : caption args with
          | error e => rw [← h, hd, hm, hu, hc]; exact ⟨rfl, .inl ⟨by simp, rfl⟩⟩
          | ok c =>
            rw [hd, hm, hu, hc] at h
            obtain ⟨hturn, hdeadline, hstate⟩ := @carryConfirmation_frame F host env
              (({ s with microphoneActive := microphone, undoAvailable := undo } : StatusRuntime F).display args state asLevel
                result voice deadline c) args
            rw [← h]
            exact ⟨hturn, .inr ⟨by simp, deadline, rfl, hdeadline, hstate⟩⟩

/-- A status update under one permit, before its lease ends. -/
def Updates [Zero F] (host : Host) (asLevel : Json → Option F) (args : Json) (s s' : StatusRuntime F) : Prop :=
  ∃ env, s.active env = true ∧ s'.permit = s.permit ∧ (s.setStatus host env args asLevel).1 = s'

/-- One that stays in the follow-up of one turn, by the epoch the status gives itself. -/
def StaysFollowup [Zero F] (host : Host) (env : EvaEnv) (asLevel : Json → Option F) (args : Json) (s s' : StatusRuntime F) :
    Prop :=
  s.active env = true ∧ s'.permit = s.permit ∧ (s.setStatus host env args asLevel).1 = s' ∧
    isFollowup s.state = true ∧ isFollowup s'.state = true ∧ s'.statusTurnEpoch = s.statusTurnEpoch

theorem checkStatus_turn {s : EvaRuntime} {u : Unit} (h : checkStatus host s args state = .ok u) {old new : Nat}
    (hold : s.statusTurnEpoch = some old) (hnew : turnEpoch args = some new) : old ≤ new := by
  unfold checkStatus at h
  unfold turnEpoch at hnew
  simp only [hold, hnew] at h
  split at h
  · cases h
  · split at h
    · cases h
    · rename_i hstale
      simpa using hstale

theorem updates_cases [Zero F] (hactive : s.active env = true) (hpermit : s'.permit = s.permit)
    (h : (s.setStatus host env args asLevel).1 = s') :
    (¬ s.Shows host env args ∧ s' = s) ∨ checkStatus host s.toEvaRuntime args (s.stateOf args) = .ok () ∧
      s'.statusTurnEpoch = (turnEpoch args).or s.statusTurnEpoch ∧
        (¬ s.Shows host env args ∧ s'.followupDeadlineNs = s.followupDeadlineNs ∨
          s.Shows host env args ∧ ∃ deadline, s.followupDeadline env args (s.stateOf args) = .ok deadline ∧
            s'.followupDeadlineNs = deadline ∧ (s'.state = s.stateOf args ∨ s'.state = "error")) := by
  have hopen : s'.permit ≠ none := by
    intro hnone
    rw [hpermit] at hnone
    simp [active, hnone] at hactive
  unfold setStatus at h
  split at h
  · rename_i hother
    exact .inl ⟨fun hs => hother hs.1, h.symm⟩
  · rename_i hown
    dsimp only at h
    cases hcheck : checkStatus host s.toEvaRuntime args (s.stateOf args) with
    | error e =>
      rw [hcheck] at h
      exact .inl ⟨fun hs => (by cases hcheck.symm.trans hs.2.1), h.symm⟩
    | ok u =>
      rw [hcheck] at h
      obtain ⟨progress, hbegin, -⟩ := @beginTurn_eq F s args (s.stateOf args)
      rw [hbegin] at h
      obtain ⟨hturn, hdeadline⟩ := showStatus_frame host env h hopen
      exact .inr ⟨rfl, hturn, hdeadline.imp (fun hd => ⟨fun hs => hd.1 hs.2.2, hd.2⟩) fun hd =>
        ⟨⟨not_not.1 hown, hcheck, hd.1⟩, hd.2⟩⟩

theorem turn_of_updates [Zero F] (h : Updates host asLevel args s s')
    {t : Nat} (ht : s.statusTurnEpoch = some t) : ∃ t', s'.statusTurnEpoch = some t' ∧ t ≤ t' := by
  obtain ⟨env, hactive, hpermit, h⟩ := h
  obtain ⟨-, rfl⟩ | ⟨hcheck, hturn, -⟩ := updates_cases host env hactive hpermit h
  · exact ⟨t, ht, Nat.le_refl t⟩
  · cases hnew : turnEpoch args with
    | none => exact ⟨t, by rw [hturn, hnew]; exact ht, Nat.le_refl t⟩
    | some new => exact ⟨new, by rw [hturn, hnew]; rfl, checkStatus_turn host hcheck ht hnew⟩

/-- In the follow-up of a turn that the status does not name as its own, the deadline becomes what the status gives. -/
theorem followupDeadline_anew {t : Nat} {deadline : Option Nat} (hstate : isFollowup state = true)
    (hturn : turnEpoch args = some t) (hother : s.followupTurnEpoch ≠ some t)
    (h : s.followupDeadline env args state = .ok deadline) :
    deadline = (args.get "followup_deadline_monotonic_ns").bind asU64 := by
  have hsame : s.sameFollowup args = false := by
    simp [sameFollowup, followupTurn, hturn, Ne.symm hother]
  unfold followupDeadline at h
  rw [if_pos hstate, hsame] at h
  split at h
  · simp_all
  · simp_all [asU64]
  · rename_i value hvalue
    split at h
    · cases h
    · rename_i new hnew
      rw [hvalue, Option.bind_some, (Option.filter_eq_some_iff.1 hnew).1]
      exact (Except.ok.inj h).symm

theorem deadline_kept_iff [Zero F] (h : StaysFollowup host env asLevel args s s') {d : Nat}
    (hd : s.followupDeadlineNs = some d) :
    (∃ d', s'.followupDeadlineNs = some d' ∧ d' ≤ d) ↔ s.KeepsFollowup host env args := by
  obtain ⟨hactive, hpermit, h, hbefore, hafter, -⟩ := h
  have hkept : s'.followupDeadlineNs = s.followupDeadlineNs → ∃ d', s'.followupDeadlineNs = some d' ∧ d' ≤ d :=
    fun heq => ⟨d, heq.trans hd, Nat.le_refl d⟩
  obtain ⟨hhidden, rfl⟩ | ⟨-, -, ⟨hhidden, heq⟩ | ⟨hshows, deadline, hread, hset, hstate⟩⟩ :=
    updates_cases host env hactive hpermit h
  · exact iff_of_true (hkept rfl) fun hs => absurd hs hhidden
  · exact iff_of_true (hkept heq) fun hs => absurd hs hhidden
  have hstated : isFollowup (s.stateOf args) = true := by
    obtain hstate | hstate := hstate
    · rw [← hstate]; exact hafter
    · rw [hstate] at hafter; exact absurd hafter (by decide)
  by_cases hown : turnEpoch args = none ∨ turnEpoch args = s.followupTurnEpoch
  · -- the same follow-up
    have hsame : s.sameFollowup args = true := by
      unfold sameFollowup followupTurn
      rw [hbefore]
      obtain hown | hown := hown
      · simp [hown]
      · cases hturn : s.followupTurnEpoch <;> simp [hown, hturn]
    refine iff_of_true ?_ fun _ => hown.elim .inl fun h => .inr (.inl h)
    simp only [followupDeadline, hstated, hsame, ↓reduceIte, hd] at hread
    split at hread
    · cases hread; exact ⟨d, hset, Nat.le_refl d⟩
    · cases hread; exact ⟨d, hset, Nat.le_refl d⟩
    · split at hread
      · cases hread
      · cases hread; exact ⟨_, hset, Nat.min_le_left d _⟩
  · -- a new one
    obtain ⟨hnamed, hother⟩ := not_or.1 hown
    obtain ⟨t, ht⟩ := Option.ne_none_iff_exists'.1 hnamed
    rw [ht] at hother
    rw [hset, followupDeadline_anew env hstated ht (Ne.symm hother) hread]
    constructor
    · rintro ⟨new, hnew, hle⟩ -
      exact .inr (.inr ⟨new, hnew, fun old hold => by rw [hd] at hold; cases hold; exact hle⟩)
    · intro hkeeps
      rcases hkeeps hshows with hnone | hsame | ⟨new, hnew, hle⟩
      · exact absurd hnone hnamed
      · exact absurd (ht.symm.trans hsame) hother
      · exact ⟨new, hnew, hle d hd⟩

/-- A refused status leaves the runtime as it was exactly where nothing it wrote before the refusal differs. Over the
statuses of one permit the turn does not go back. While the panel stays in the follow-up of one turn, its deadline is
neither removed nor moved later exactly by the statuses that are not shown, name no other turn than the follow-up's own, or
give no later deadline. -/
theorem refused_status_traceless_iff [Zero F] (host : Host) (asLevel : Json → Option F) :
    (∀ env (s : StatusRuntime F) args code, s.active env = true → (s.setStatus host env args asLevel).2 = .err code →
      ((s.setStatus host env args asLevel).1 = s ↔ s.Traceless host env args asLevel)) ∧
    (∀ s s', Relation.ReflTransGen (fun s s' => ∃ args, Updates host asLevel args s s') s s' →
      ∀ t, s.statusTurnEpoch = some t → ∃ t', s'.statusTurnEpoch = some t' ∧ t ≤ t') ∧
    (∀ s s', Relation.ReflTransGen (fun s s' => ∃ env args, StaysFollowup host env asLevel args s s' ∧
        s.KeepsFollowup host env args) s s' →
      ∀ d, s.followupDeadlineNs = some d → ∃ d', s'.followupDeadlineNs = some d' ∧ d' ≤ d) ∧
    ∀ env args s s', StaysFollowup host env asLevel args s s' → ∀ d, s.followupDeadlineNs = some d →
      ((∃ d', s'.followupDeadlineNs = some d' ∧ d' ≤ d) ↔ s.KeepsFollowup host env args) := by
  refine ⟨fun env s args code _ h => setStatus_eq_iff host env (Prod.ext rfl h), fun s s' run t ht => ?_, fun s s' run d hd => ?_,
    fun env args s s' h d hd => deadline_kept_iff host env h hd⟩
  · induction run with
    | refl => exact ⟨t, ht, Nat.le_refl t⟩
    | tail _ step ih =>
      obtain ⟨t₁, ht₁, hle₁⟩ := ih
      obtain ⟨args, hstep⟩ := step
      obtain ⟨t', ht', hle⟩ := turn_of_updates host hstep ht₁
      exact ⟨t', ht', Nat.le_trans hle₁ hle⟩
  · induction run with
    | refl => exact ⟨d, hd, Nat.le_refl d⟩
    | tail _ step ih =>
      obtain ⟨d₁, hd₁, hle₁⟩ := ih
      obtain ⟨env, args, hstep, hkeeps⟩ := step
      obtain ⟨d', hd', hle⟩ := (deadline_kept_iff host env hstep hd₁).2 hkeeps
      exact ⟨d', hd', Nat.le_trans hle hle₁⟩

end StatusRuntime

/-- In the follow-up of turn 5. -/
def Sample.followup : StatusRuntime Nat :=
  { toEvaRuntime := { EvaRuntime.default with
      permit := some { assistantSessionId := "wm-1", generation := 1 }, leaseUntil := some lease, state := "follow_up"
      statusTurnEpoch := some 5 }
    text := "", resultStatus := none, voiceFallback := false, errorCode := none, retryable := none, level := 0
    microphoneActive := false, undoAvailable := false, inputCaption := none, taskProgress := none
    followupDeadlineNs := some 100, followupTurnEpoch := some 5, confirmationDetailPage := none, confirmationSeenPages := [] }

/-- The undo flag is no boolean. -/
def Sample.halfStatus : Json :=
  .object [("assistant_permit", permit 1), ("microphone_active", .bool true), ("undo_available", .null)]

def Sample.refused : StatusRuntime Nat × Response :=
  followup.setStatus wm (session 1) halfStatus asU64

theorem refused_status_traceless_iff_followup :
    (Sample.refused.1 = Sample.followup ↔
        Sample.followup.Traceless Sample.wm (Sample.session 1) Sample.halfStatus Json.asU64) ∧
      (∃ t', Sample.refused.1.statusTurnEpoch = some t' ∧ 5 ≤ t') ∧
        ∃ d', Sample.refused.1.followupDeadlineNs = some d' ∧ d' ≤ 100 := by
  obtain ⟨hrefused, hturn, hdeadline, -⟩ := StatusRuntime.refused_status_traceless_iff Sample.wm Json.asU64
  have hactive : Sample.followup.active (Sample.session 1) = true := by decide +kernel
  have hpermit : Sample.refused.1.permit = Sample.followup.permit := by decide +kernel
  exact ⟨hrefused _ _ _ "plan_invalid: undo_available must be boolean" hactive (by decide +kernel),
    hturn _ _ (.single ⟨_, _, hactive, hpermit, rfl⟩) 5 rfl,
    hdeadline _ _ (.single ⟨_, _, ⟨hactive, hpermit, rfl, by decide +kernel, by decide +kernel, by decide +kernel⟩,
      fun _ => .inl (by decide +kernel)⟩) 100 rfl⟩

/-- Turn 5 answered; its follow-up is not open yet. -/
def Sample.responding : StatusRuntime Nat :=
  { followup with state := "responding", followupDeadlineNs := none, followupTurnEpoch := none }

/-- `followup` as a status with a deadline leaves it that names a turn or none. -/
def Sample.followupFrom (s : StatusRuntime Nat) (turn : Json) (deadline : Nat) : StatusRuntime Nat × Json :=
  let args := .object [("assistant_permit", permit 1), ("state", .string "follow_up"), ("turn_epoch", turn),
    ("followup_deadline_monotonic_ns", .number (.pos deadline))]
  ((s.setStatus wm (session 1) args asU64).1, args)

/-- The microphone shows although the status is refused; and a status that names turn 5 in the follow-up of turn 5, which
was opened without a name, moves its deadline. -/
theorem refused_status_shows_microphone :
    (Sample.followup.active (Sample.session 1) = true ∧
      Sample.refused.2 = .err "plan_invalid: undo_available must be boolean" ∧ Sample.refused.1 ≠ Sample.followup) ∧
    let opened := (Sample.followupFrom Sample.responding .null 100).1
    let moved := Sample.followupFrom opened (.number (.pos 5)) 500
    opened.StaysFollowup Sample.wm (Sample.session 1) Json.asU64 moved.2 moved.1 ∧
      opened.followupDeadlineNs = some 100 ∧ moved.1.followupDeadlineNs = some 500 := by
  refine ⟨⟨by decide +kernel, by decide +kernel, fun h => ?_⟩, ⟨by decide +kernel, by decide +kernel, rfl, by decide +kernel,
    by decide +kernel, by decide +kernel⟩, by decide +kernel, by decide +kernel⟩
  have hmicrophone : Sample.refused.1.microphoneActive = true := by decide +kernel
  rw [h] at hmicrophone
  exact absurd hmicrophone (by decide)

end Jwm.Authority
