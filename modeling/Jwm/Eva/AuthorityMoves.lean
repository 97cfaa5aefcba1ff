/-
What a call may do to the permit, the confirmation and the operations, one part at a time, and what a dispatch
requires.
-/
import Jwm.Eva.Authority

namespace Jwm.Authority

open EvaRuntime
open Option

/-! ## Moves -/

/-- Everything but a dispatch: from `s`, making `events` known, to `s'`. -/
inductive Move (env : EvaEnv) : EvaRuntime → List EvaEvent → EvaRuntime → Prop
  | rest {s s' : EvaRuntime} (hp : s'.permit = s.permit) (hc : s'.confirmation = s.confirmation)
      (ho : s'.operations = s.operations) : Move env s [] s'
  | cancel (s : EvaRuntime) (reason : String) : Move env s (s.cancel reason).2 (s.cancel reason).1
  | activate {s s' : EvaRuntime} {p : AssistantPermit} (hp : s.permit = none) (hc : s.confirmation = none)
      (hp' : s'.permit = some p) (hc' : s'.confirmation = none) (ho : s'.operations = s.operations) :
      Move env s [.activated p] s'
  | freeze {s s' : EvaRuntime} {c : Confirmation} {targets : Json} {expires : Nat} (hp : s'.permit = s.permit)
      (hc : s'.confirmation = some c) (htargets : c.targets = targets) (hexpires : c.expires = expires)
      (happroved : c.approved = false) (ho : s'.operations = s.operations) : Move env s [.frozen targets expires] s'
  | confirm {s s' : EvaRuntime} {p : AssistantPermit} {c : Confirmation} (hp : s.permit = some p)
      (hc : s.confirmation = some c) (hlive : env.now < c.expires) (hp' : s'.permit = s.permit)
      (hc' : s'.confirmation = some { c with approved := true }) (ho : s'.operations = s.operations) :
      Move env s [.confirmed c.token c.planHash (some p) env.now] s'
  | expire {s s' : EvaRuntime} {c : Confirmation} (hc : s.confirmation = some c) (hp' : s'.permit = s.permit)
      (hc' : s'.confirmation = some { c with expiryReported := true, approved := false })
      (ho : s'.operations = s.operations) : Move env s [.confirmationExpired] s'
  | observe (s : EvaRuntime) : Move env s (s.tickOperations env).2 (s.tickOperations env).1
  | trans {s s' s'' : EvaRuntime} {events events' : List EvaEvent} (h : Move env s events s')
      (h' : Move env s' events' s'') : Move env s (events ++ events') s''

variable {host : Host} {env : EvaEnv} {s s' : EvaRuntime} {events : List EvaEvent}

theorem Move.refl (s : EvaRuntime) : Move env s [] s := .rest rfl rfl rfl

variable {s'' : EvaRuntime}

theorem Move.then (h : Move env s events s') (hp : s''.permit = s'.permit)
    (hc : s''.confirmation = s'.confirmation) (ho : s''.operations = s'.operations) : Move env s events s'' := by
  have hrest : Move env s' [] s'' := .rest hp hc ho
  have hboth := h.trans hrest
  rwa [List.append_nil] at hboth

/-! ## The tick -/

/-- Nothing the authority rests on has changed. -/
structure Undisturbed (s s' : EvaRuntime) : Prop where
  permit : s'.permit = s.permit
  lease : s'.leaseUntil = s.leaseUntil
  confirmation : s'.confirmation = s.confirmation
  operations : s'.operations = s.operations

open Undisturbed

theorem Undisturbed.trans (h : Undisturbed s s') (h' : Undisturbed s' s'') : Undisturbed s s'' :=
  ⟨h'.permit.trans h.permit, h'.lease.trans h.lease, h'.confirmation.trans h.confirmation,
    h'.operations.trans h.operations⟩

theorem Undisturbed.move (h : Undisturbed s s') : Move env s [] s' := .rest h.permit h.confirmation h.operations

theorem Undisturbed.updateWake (h : Undisturbed s s') (enabled retire : Bool) :
    Undisturbed s (s'.updateWakeRequested env enabled retire) := by
  unfold updateWakeRequested
  split
  · exact h
  · exact ⟨h.permit, h.lease, h.confirmation, h.operations⟩

theorem undisturbed_tickStandby (s : EvaRuntime) : Undisturbed s (s.tickStandby env) := by
  unfold tickStandby
  dsimp only
  split
  · refine updateWake ?_ false false
    exact ⟨rfl, rfl, rfl, rfl⟩
  · exact ⟨rfl, rfl, rfl, rfl⟩

theorem undisturbed_tickPresentation (s : EvaRuntime) : Undisturbed s (s.tickPresentation env) := by
  unfold tickPresentation
  split
  · exact ⟨rfl, rfl, rfl, rfl⟩
  · exact ⟨rfl, rfl, rfl, rfl⟩

theorem undisturbed_tickWakeLease (s : EvaRuntime) : Undisturbed s (s.tickWakeLease env) := by
  unfold tickWakeLease
  dsimp only
  have hretired : Undisturbed s (({ s with wakeLeaseUntil := none } : EvaRuntime).updateWakeRequested env false false) := by
    refine updateWake ?_ false false
    exact ⟨rfl, rfl, rfl, rfl⟩
  split
  · split
    · exact hretired.trans ⟨rfl, rfl, rfl, rfl⟩
    · exact hretired.trans ⟨rfl, rfl, rfl, rfl⟩
  · exact ⟨rfl, rfl, rfl, rfl⟩

/-- The permit is gone, or is what it was, with its lease. -/
def PermitKept (s s' : EvaRuntime) : Prop := s'.permit = none ∨ s'.permit = s.permit ∧ s'.leaseUntil = s.leaseUntil

theorem PermitKept.trans (h : PermitKept s s') (h' : PermitKept s' s'') : PermitKept s s'' := by
  rcases h' with h' | ⟨hp', hl'⟩
  · exact .inl h'
  · rcases h with h | ⟨hp, hl⟩
    · exact .inl (hp'.trans h)
    · exact .inr ⟨hp'.trans hp, hl'.trans hl⟩

theorem tickPermit_spec (s : EvaRuntime) :
    Move env s (s.tickPermit env).2 (s.tickPermit env).1 ∧ PermitKept s (s.tickPermit env).1 ∧
      ((s.tickPermit env).1.permit = none ∨ env.compositorLocked = false) := by
  unfold tickPermit
  generalize hfirst : (if s.permit.isSome then
    let monitor := env.presentable (s.presentationMonitor.or s.activationMonitor)
    if !env.supportsOverlay || monitor.isNone then s.cancel "overlay_unavailable"
    else ({ s with presentationMonitor := monitor }, [])
    else (s, [])) = first
  have h₁ : Move env s first.2 first.1 ∧ PermitKept s first.1 := by
    subst hfirst
    split
    · dsimp only
      split
      · exact ⟨.cancel s _, .inl rfl⟩
      · exact ⟨.rest rfl rfl rfl, .inr ⟨rfl, rfl⟩⟩
    · exact ⟨.refl s, .inr ⟨rfl, rfl⟩⟩
  obtain ⟨s₁, overlay⟩ := first
  dsimp only at h₁ ⊢
  generalize hsecond : (if s₁.permit.isSome && env.compositorLocked then s₁.cancel "session_locked" else (s₁, [])) = second
  have h₂ : Move env s (overlay ++ second.2) second.1 ∧ PermitKept s second.1 ∧
      (second.1.permit = none ∨ env.compositorLocked = false) := by
    subst hsecond
    split
    · exact ⟨h₁.1.trans (.cancel s₁ _), .inl rfl, .inl rfl⟩
    · rename_i hopen
      refine ⟨h₁.1.trans (.refl s₁), h₁.2, ?_⟩
      rw [Bool.and_eq_true, not_and, Bool.not_eq_true] at hopen
      cases hp : s₁.permit with
      | none => exact .inl rfl
      | some p => exact .inr (hopen (by rw [hp]; rfl))
  obtain ⟨s₂, locked⟩ := second
  split
  · refine ⟨?_, .inl ?_, .inl ?_⟩
    · refine (h₂.1.trans (.cancel s₂ _)).then ?_ ?_ ?_
      · split <;> rfl
      · split <;> rfl
      · split <;> rfl
    · split <;> rfl
    · split <;> rfl
  · exact h₂

theorem tickConfirmation_spec (s : EvaRuntime) :
    Move env s (s.tickConfirmation env).2 (s.tickConfirmation env).1 ∧ PermitKept s (s.tickConfirmation env).1 := by
  unfold tickConfirmation
  split
  · rename_i c hc
    split
    · exact ⟨.expire hc rfl rfl rfl, .inr ⟨rfl, rfl⟩⟩
    · exact ⟨.refl s, .inr ⟨rfl, rfl⟩⟩
  · exact ⟨.refl s, .inr ⟨rfl, rfl⟩⟩

theorem tick_spec (s : EvaRuntime) : Move env s (s.tick env).2 (s.tick env).1 ∧ PermitKept s (s.tick env).1 ∧
      ((s.tick env).1.permit = none ∨ env.compositorLocked = false) := by
  unfold tick
  have hwake : Undisturbed s (((s.tickStandby env).tickPresentation env).tickWakeLease env) :=
    ((undisturbed_tickStandby s).trans (undisturbed_tickPresentation _)).trans (undisturbed_tickWakeLease _)
  generalize ((s.tickStandby env).tickPresentation env).tickWakeLease env = s₁ at hwake
  obtain ⟨hmove₁, hkept₁, hopen⟩ := @tickPermit_spec env s₁
  generalize s₁.tickPermit env = second at hmove₁ hkept₁ hopen
  obtain ⟨s₂, permit⟩ := second
  obtain ⟨hmove₂, hkept₂⟩ := @tickConfirmation_spec env s₂
  dsimp only at hmove₁ hkept₁ hopen ⊢
  generalize s₂.tickConfirmation env = third at hmove₂ hkept₂
  obtain ⟨s₃, confirmation⟩ := third
  have hkept : PermitKept s s₃ := (PermitKept.trans (.inr ⟨hwake.permit, hwake.lease⟩) hkept₁).trans hkept₂
  refine ⟨((hwake.move.trans hmove₁).trans hmove₂).trans (.observe s₃), hkept, ?_⟩
  rcases hopen with hgone | hopen
  · rcases hkept₂ with hgone' | ⟨hsame, -⟩
    · exact .inl hgone'
    · exact .inl (hsame.trans hgone)
  · exact .inr hopen

theorem move_tick (s : EvaRuntime) : Move env s (s.tick env).2 (s.tick env).1 := (tick_spec s).1

/-! ## Control -/

section

variable (s : EvaRuntime)

theorem move_finishSession (args : Json) :
    Move env s (s.finishSession host env args).2.1 (s.finishSession host env args).1 := by
  unfold finishSession
  have htick := @move_tick env s
  generalize s.tick env = ticked at htick
  obtain ⟨s₁, events⟩ := ticked
  dsimp only at htick ⊢
  split
  · exact htick
  · split
    · exact htick
    · split
      · exact htick
      · refine htick.trans ?_
        have hwake : ∀ disable : Bool, Undisturbed s₁ (if disable then s₁.updateWakeRequested env false true else s₁) := by
          intro disable
          split
          · exact updateWake ⟨rfl, rfl, rfl, rfl⟩ false true
          · exact ⟨rfl, rfl, rfl, rfl⟩
        exact (hwake _).move.trans (.cancel _ _)

theorem move_activate (source : Option Nat) :
    Move env s (s.activate host env source).2.1 (s.activate host env source).1 := by
  unfold activate
  split
  · exact .refl s
  · split
    · exact .refl s
    · dsimp only
      split
      · exact .cancel s _
      · exact (Move.cancel s "replaced").trans (.activate rfl rfl rfl rfl rfl)

theorem move_controlSession (action : String) (source : Option Nat) :
    Move env s (s.controlSession host env action source).2.1 (s.controlSession host env action source).1 := by
  unfold controlSession
  split
  · exact .cancel s _
  · exact move_activate s source

theorem move_wakeActivate (args : Json) :
    Move env s (s.wakeActivate host env args).2.1 (s.wakeActivate host env args).1 := by
  unfold wakeActivate
  have htick := @move_tick env s
  generalize s.tick env = ticked at htick
  obtain ⟨s₁, events⟩ := ticked
  dsimp only at htick ⊢
  split
  · exact htick
  · split
    · exact htick
    · exact htick.trans (move_controlSession s₁ "activate" _)

theorem move_controlWake (action : String) (args : Json) :
    Move env s (s.controlWake host env action args).2.1 (s.controlWake host env action args).1 := by
  unfold controlWake
  have htick := @move_tick env s
  generalize s.tick env = ticked at htick
  obtain ⟨s₁, events⟩ := ticked
  dsimp only at htick ⊢
  split
  · exact htick
  · split
    · exact htick
    · generalize (action = "wake_enable" || (action = "wake_toggle" && !s₁.wakeRequested) : Bool) = enabled
      have hwake := @updateWake env s₁ _ ⟨rfl, rfl, rfl, rfl⟩ enabled (action = "wake_enable")
      split
      · exact htick.then hwake.permit hwake.confirmation hwake.operations
      · exact htick.then hwake.permit hwake.confirmation hwake.operations

theorem move_control (args : Json) : Move env s (s.control host env args).2.1 (s.control host env args).1 := by
  unfold EvaRuntime.control
  split
  · exact .refl s
  · split
    · exact move_finishSession s args
    · split
      · exact move_wakeActivate s args
      · split
        · exact move_controlWake s _ args
        · split
          · exact .refl s
          · exact move_controlSession s _ none

end

/-! ## Status and confirmation -/

theorem Move.renew (h : Move env s events s') : Move env s events (s'.renew env) := by
  unfold EvaRuntime.renew
  split
  · exact h.then rfl rfl rfl
  · exact h.then rfl rfl rfl

theorem move_freeze (s : EvaRuntime) (request : Json) :
    Move env s (s.freeze host env request).2.1 (s.freeze host env request).1 := by
  unfold freeze
  split
  · exact .refl s
  · dsimp only
    split
    · exact .refl s
    · split
      · exact .rest rfl rfl rfl
      · exact .freeze rfl rfl rfl rfl rfl rfl

theorem move_carryStatus (s : EvaRuntime) (args : Json) :
    Move env s (s.carryStatus host env args).2.1 (s.carryStatus host env args).1 := by
  unfold carryStatus
  split
  · exact (Move.refl s).renew
  · rename_i request hrequest
    have hfreeze := @move_freeze host env s request
    generalize s.freeze host env request = frozen at hfreeze
    obtain ⟨s₁, events, result⟩ := frozen
    cases result with
    | error e => exact hfreeze
    | ok u => exact hfreeze.renew

theorem move_applyStatus (s : EvaRuntime) (args : Json) (state : String) :
    Move env s (s.applyStatus host env args state).2.1 (s.applyStatus host env args state).1 := by
  unfold applyStatus
  split
  · exact .cancel s _
  · split
    · exact .refl s
    · have hstate : Move env s [] { s with state } := .rest rfl rfl rfl
      exact hstate.trans (move_carryStatus _ args)

theorem move_setStatus (s : EvaRuntime) (args : Json) :
    Move env s (s.setStatus host env args).2.1 (s.setStatus host env args).1 := by
  unfold setStatus
  split
  · exact move_tick s
  · split
    · exact .refl s
    · dsimp only
      split
      · exact .refl s
      · have hturn : Move env s []
            { s with statusTurnEpoch := ((args.index "turn_epoch").asU64).or s.statusTurnEpoch } := .rest rfl rfl rfl
        exact hturn.trans (move_applyStatus _ args _)

theorem move_confirm (s : EvaRuntime) (reviewable : Bool) :
    Move env s (s.confirm env reviewable).2.1 (s.confirm env reviewable).1 := by
  unfold confirm
  split
  · exact .refl s
  · rename_i hactive
    rw [Bool.or_eq_true, Bool.or_eq_true, not_or, not_or] at hactive
    split
    · rename_i c hc
      split
      · rename_i hlive
        rw [Bool.and_eq_true, decide_eq_true_eq] at hlive
        have hpermit : s.permit.isSome = true := by
          have hactive := hactive.1.1
          rw [Bool.not_eq_true', Bool.not_eq_false] at hactive
          unfold active at hactive
          simp only [Bool.and_eq_true] at hactive
          exact hactive.1.1.1.1
        obtain ⟨p, hp⟩ := isSome_iff_exists.1 hpermit
        rw [hp]
        refine Move.confirm hp hc hlive.2 hp.symm ?_ rfl
        rfl
      · exact .refl s
    · exact .refl s

/-! ## Guarded execution -/

/-- The position a confirmation holds ready for an action. -/
structure Holds (c : Confirmation) (now : Nat) (action : Action) (i : Nat) : Prop where
  approved : c.approved = true
  live : now < c.expires
  free : c.used[i]? = some false
  target : ∃ actions, c.targets.asArray = some actions ∧ actions[i]? = some action.toJson

theorem freePosition_spec {c : Confirmation} {action : Action} {i : Nat} (h : freePosition c action = some i) :
    c.used[i]? = some false ∧ ∃ actions, c.targets.asArray = some actions ∧ actions[i]? = some action.toJson := by
  obtain ⟨actions, hactions, hfind⟩ := bind_eq_some_iff.1 h
  have hi := List.find?_some hfind
  rw [Bool.and_eq_true, Bool.not_eq_true', beq_iff_eq] at hi
  obtain ⟨hused, htarget⟩ := hi
  refine ⟨?_, actions, hactions, htarget⟩
  cases hget : c.used[i]? with
  | none =>
    rw [hget] at hused
    cases hused
  | some used =>
    rw [hget] at hused
    cases hused
    rfl

variable {req : GuardedRequest}

theorem confirmedPosition_spec {i : Nat} (h : s.confirmedPosition env req = some i) :
    ∃ c, s.confirmation = some c ∧ Holds c env.now req.action i := by
  obtain ⟨c, hc, hfree⟩ := bind_eq_some_iff.1 h
  obtain ⟨hc, hready⟩ := filter_eq_some_iff.1 hc
  rw [Bool.and_eq_true, Bool.and_eq_true, decide_eq_true_eq] at hready
  obtain ⟨hused, htarget⟩ := freePosition_spec hfree
  exact ⟨c, hc, hready.1.1, hready.1.2, hused, htarget⟩

theorem checkAction_ok {position : Option Nat} (h : s.checkAction host env req = .ok position) :
    (sensitive host req.action = true → position.isSome = true) ∧
      ∀ i, position = some i → ∃ c, s.confirmation = some c ∧ Holds c env.now req.action i := by
  unfold checkAction at h
  split at h
  · cases h
  · split at h
    · cases h
    · split at h
      · cases h
      · split at h
        · cases h
        · dsimp only at h
          generalize hchosen : (if sensitive host req.action then s.confirmedPosition env req else none) = chosen at h
          split at h
          · cases h
          · rename_i hsensitive
            have hposition : chosen = position := by
              split at h
              · split at h
                · cases h
                · split at h
                  · cases h
                  · exact Except.ok.inj h
              · exact Except.ok.inj h
            subst hposition
            refine ⟨fun hs => ?_, fun i hi => ?_⟩
            · rw [hs, Bool.true_and, isNone_iff_eq_none] at hsensitive
              exact isSome_iff_ne_none.2 hsensitive
            · rw [hi] at hchosen
              split at hchosen
              · exact confirmedPosition_spec hchosen
              · cases hchosen

/-- What a dispatch rests on: `s` the state it was asked for in, `s'` the one the tick left. -/
structure Dispatching (host : Host) (env : EvaEnv) (s s' : EvaRuntime) (args : Json) (req : GuardedRequest)
    (position : Option Nat) : Prop where
  checked : precheck host args = .request req
  fresh : s.operations.get? req.operationId = none
  permit : s'.permit = some req.assistantPermit
  active : s'.active env = true
  action : s'.checkAction host env req = .ok position

def dispatchOf (env : EvaEnv) (args : Json) (req : GuardedRequest) (position : Option Nat) : Dispatch :=
  { operationId := req.operationId, request := args, permit := req.assistantPermit, action := req.action, position
    time := env.now }

theorem guardedExecute_spec (s : EvaRuntime) (args : Json) (o : Outcome) :
    Move env s (s.guardedExecute host env args o).2.1 (s.guardedExecute host env args o).1 ∨
      ∃ req position, Dispatching host env s (s.tick env).1 args req position ∧
        s.guardedExecute host env args o =
          ((((s.tick env).1.reserve env req args position).settleDispatch req.operationId o).1,
            (s.tick env).2 ++ .dispatched (dispatchOf env args req position) ::
              (((s.tick env).1.reserve env req args position).settleDispatch req.operationId o).2,
            .ok (some (o.answer req.operationId))) := by
  unfold guardedExecute
  cases hpre : precheck host args with
  | refused code | crash => exact .inl (.refl s)
  | request req =>
    dsimp only
    cases hold : s.operations.get? req.operationId with
    | some old =>
      dsimp only
      split
      · exact .inl (.refl s)
      · exact .inl (.refl s)
    | none =>
      have htick := @move_tick env s
      dsimp only
      split
      · exact .inl htick
      · rename_i hactive
        rw [Bool.or_eq_true, not_or, Bool.not_eq_true', Bool.not_eq_false, decide_eq_true_eq, not_not] at hactive
        split
        · exact .inl htick
        · split
          · exact .inl htick
          · rename_i position haction
            exact .inr ⟨req, position, ⟨hpre, hold, hactive.2, hactive.1, haction⟩, rfl⟩

theorem guardedExecute_known {args : Json} {old : Operation}
    (hpre : precheck host args = .request req) (hold : s.operations.get? req.operationId = some old) (o : Outcome) :
    s.guardedExecute host env args o = (s, [],
      if old.digest = req.requestDigest ∧ old.request = args then .ok (some old.result) else .err "operation_id_conflict") := by
  unfold guardedExecute
  rw [hpre]
  dsimp only
  rw [hold]
  dsimp only
  split
  · rfl
  · rfl

end Jwm.Authority
