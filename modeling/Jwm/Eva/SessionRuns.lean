/-
The authority of a voice session is fenced. `Outcome` says once what each call can do; the rest follows from it.
-/
import Jwm.Eva.Session
import Mathlib.Data.List.Induction

namespace Jwm.Eva

open List Option Session SessionAnswer State

abbrev SessionHistory := List (SessionCall × SessionAnswer)

/-! ## What a call can do -/

def State.live (state : State) : Bool := !(state == .idle || state == .closing || state == .error)

def SessionAnswer.Denied : SessionAnswer → Prop
  | .activated (.ok _) | .accepted true | .expired (some _) => False
  | _ => True

variable {epoch bound : Nat} {s' : Session} {answer : SessionAnswer}

section Outcomes

/-- The calls that take effect, with what they find and what they leave. -/
inductive Outcome (s : Session) : SessionCall → Session → SessionAnswer → Prop
  | unchanged {call answer} (hcall : ∀ reason now, call ≠ .cancel reason now) (h : answer.Denied) : Outcome s call s answer
  | activated {permit now} (h : s.state = .idle) : Outcome s (.activate permit now)
      { s with
        state := .connecting, sessionEpoch := wrappingSucc s.sessionEpoch, turnEpoch := wrappingSucc s.turnEpoch
        permit := some permit, closeReason := none, startedAt := now, enteredAt := now, speechAt := none
        candidate := none, planClaimed := false }
      (.activated (.ok (wrappingSucc s.sessionEpoch)))
  | ready {epoch now} (hlive : s.permit.isSome) : Outcome s (.ready epoch now) (s.enter .listening now) (.accepted true)
  | candidate {epoch capturedAt now} (hnone : s.candidate = none) :
      Outcome s (.localSpeechCandidate epoch capturedAt now)
        { s with candidate := some (capturedAt, saturatingAdd now s.limits.startGraceMs) } (.accepted true)
  | dropped {epoch now} (hmatch : s.isMatch epoch s.turnEpoch = true) (hlate : s.tooLate (s.captured now) = true) :
      Outcome s (.speechStarted epoch now) { s with candidate := none } (.accepted false)
  | spoken {epoch now} (hstate : s.state = .listening) : Outcome s (.speechStarted epoch now)
      { s with candidate := none, speechAt := some (s.captured now), followUpDeadline := none } (.accepted true)
  | reopened {epoch now} (hlive : s.permit.isSome) (hstate : s.state = .followUp) : Outcome s (.speechStarted epoch now)
      { s with
        state := .listening, enteredAt := now, turnEpoch := wrappingSucc s.turnEpoch, planClaimed := false
        candidate := none, speechAt := some (s.captured now), followUpDeadline := none }
      (.accepted true)
  | committed {now} (hlive : s.permit.isSome) :
      Outcome s (.inputCommitted s.sessionEpoch s.turnEpoch now) (s.enter .planning now) (.accepted true)
  | claimed {confirmation now} (hlive : s.permit.isSome) (hstate : s.state = .planning) (hfirst : s.planClaimed = false) :
      Outcome s (.claimPlan s.sessionEpoch s.turnEpoch confirmation now)
        ({ s with planClaimed := true }.enter (if confirmation then .confirming else .executing) now) (.accepted true)
  | confirmed {now} (hlive : s.permit.isSome) (hstate : s.state = .confirming)
      (htime : now ≤ s.enteredAt + s.limits.confirmationMs) :
      Outcome s (.confirm s.sessionEpoch s.turnEpoch now) (s.enter .executing now) (.accepted true)
  | responded {epoch turn now} (hlive : s.permit.isSome) :
      Outcome s (.respond epoch turn now) (s.enter .responding now) (.accepted true)
  | followed {epoch turn now} (hlive : s.permit.isSome) (hstate : s.state = .responding) :
      Outcome s (.feedbackCompleted epoch turn now)
      { s with
        state := .followUp, enteredAt := now, followUpDeadline := some (saturatingAdd now s.limits.followUpMs)
        speechAt := none, candidate := none }
      (.accepted true)
  | interrupted {epoch now} (hlive : s.permit.isSome) : Outcome s (.interrupt epoch now)
      { s with
        state := .listening, enteredAt := now, turnEpoch := wrappingSucc s.turnEpoch, planClaimed := false
        speechAt := none, candidate := none, followUpDeadline := none }
      (.accepted true)
  | cancelled {call answer reason now} (hcall : ∀ epoch turn confirmation now, call ≠ .claimPlan epoch turn confirmation now)
      (hanswer : ∀ epoch, answer ≠ .activated (.ok epoch)) : Outcome s call (s.cancel reason now) answer
  | closed {now} (h : s.state = .closing ∨ s.state = .error) : Outcome s (.closed now) (s.enter .idle now) .done

variable {s : Session}

theorem isMatch_iff {turn : Nat} : s.isMatch epoch turn = true ↔
    s.sessionEpoch = epoch ∧ s.turnEpoch = turn ∧ s.permit.isSome = true ∧ s.state.live = true := by
  unfold isMatch live
  rw [Bool.and_eq_true, Bool.and_eq_true, Bool.and_eq_true, beq_iff_eq, beq_iff_eq, and_assoc, and_assoc]

theorem step_stale {call : SessionCall} (hcall : call.epoch = some epoch) (h : s.sessionEpoch ≠ epoch) :
    s.step call = (s, .accepted false) := by
  have hno : ∀ turn, s.isMatch epoch turn = false := fun turn =>
    Bool.eq_false_iff.2 fun hmatch => h (isMatch_iff.1 hmatch).1
  cases call
  case activate | cancel | closed | tick => cases hcall
  all_goals
    cases hcall
    simp [Session.step, ready, localSpeechCandidate, speechStarted, inputCommitted, claimPlan,
      confirm, respond, feedbackCompleted, interrupt, hno]

/-- A call that changes nothing where its guard refuses it. -/
theorem outcome_guarded {call : SessionCall} {guard : Prop} [Decidable guard] (r : Session × Bool)
    (hr : r = if guard then (s, false) else (s', true)) (hcall : ∀ reason now, call ≠ .cancel reason now)
    (h : ¬guard → Outcome s call s' (.accepted true)) : Outcome s call r.1 (.accepted r.2) := by
  subst hr
  split
  · exact .unchanged hcall trivial
  · rename_i hguard
    exact h hguard

theorem outcome_step (s : Session) (call : SessionCall) : Outcome s call (s.step call).1 (s.step call).2 := by
  cases call with
  | activate permit now =>
    dsimp only [Session.step]
    unfold activate
    split
    · exact .unchanged nofun trivial
    · rename_i h
      exact .activated (not_not.1 h)
  | ready epoch now =>
    refine outcome_guarded (s.ready epoch now) rfl nofun fun h => ?_
    simp only [Bool.or_eq_true, Bool.not_eq_true', not_or, Bool.not_eq_false] at h
    exact .ready (isMatch_iff.1 h.1).2.2.1
  | localSpeechCandidate epoch capturedAt now =>
    dsimp only [Session.step]
    unfold localSpeechCandidate
    split
    · exact .unchanged nofun trivial
    · rename_i h
      simp only [Bool.or_eq_true, not_or, not_isSome_iff_eq_none] at h
      exact outcome_guarded _ rfl nofun fun _ => .candidate h.2
  | speechStarted epoch now =>
    dsimp only [Session.step]
    unfold speechStarted
    split
    · exact .unchanged nofun trivial
    · rename_i h
      simp only [Bool.or_eq_true, Bool.not_eq_true', not_or, Bool.not_eq_false] at h
      obtain ⟨hmatch, hupload⟩ := h
      dsimp only
      split
      · rename_i hlate
        exact .dropped hmatch hlate
      · rename_i hlate
        simp only [uploadAllowed, Bool.or_eq_true, beq_iff_eq] at hupload
        rcases hupload with hstate | hstate
        · have hother : s.state ≠ .followUp := by
            rw [hstate]
            exact noConfusion
          rw [if_neg hother]
          exact .spoken hstate
        · rw [if_pos hstate]
          exact .reopened (isMatch_iff.1 hmatch).2.2.1 hstate
  | inputCommitted epoch turn now =>
    refine outcome_guarded (s.inputCommitted epoch turn now) rfl nofun fun h => ?_
    simp only [Bool.or_eq_true, Bool.not_eq_true', not_or, Bool.not_eq_false] at h
    obtain ⟨rfl, rfl, hlive, -⟩ := isMatch_iff.1 h.1.1
    exact .committed hlive
  | claimPlan epoch turn confirmation now =>
    refine outcome_guarded (s.claimPlan epoch turn confirmation now) rfl nofun fun h => ?_
    simp only [Bool.or_eq_true, Bool.not_eq_true', decide_eq_true_eq, not_or, Bool.not_eq_false, not_not] at h
    obtain ⟨rfl, rfl, hlive, -⟩ := isMatch_iff.1 h.1.1
    exact .claimed hlive h.1.2 (Bool.eq_false_iff.2 h.2)
  | confirm epoch turn now =>
    refine outcome_guarded (s.confirm epoch turn now) rfl nofun fun h => ?_
    simp only [Bool.or_eq_true, Bool.not_eq_true', decide_eq_true_eq, not_or, Bool.not_eq_false, not_not] at h
    obtain ⟨rfl, rfl, hlive, -⟩ := isMatch_iff.1 h.1.1
    exact .confirmed hlive h.1.2 (by omega)
  | respond epoch turn now =>
    refine outcome_guarded (s.respond epoch turn now) rfl nofun fun h => ?_
    simp only [Bool.or_eq_true, Bool.not_eq_true', not_or, Bool.not_eq_false] at h
    exact .responded (isMatch_iff.1 h.1).2.2.1
  | feedbackCompleted epoch turn now =>
    dsimp only [Session.step]
    unfold feedbackCompleted
    split
    · exact .unchanged nofun trivial
    · rename_i h
      simp only [Bool.or_eq_true, Bool.not_eq_true', decide_eq_true_eq, not_or, Bool.not_eq_false, not_not] at h
      split
      · exact .cancelled nofun nofun
      · exact .followed (isMatch_iff.1 h.1).2.2.1 h.2
  | interrupt epoch now =>
    refine outcome_guarded (s.interrupt epoch now) rfl nofun fun h => ?_
    simp only [Bool.or_eq_true, Bool.not_eq_true', not_or, Bool.not_eq_false] at h
    exact .interrupted (isMatch_iff.1 h.1).2.2.1
  | cancel reason now => exact .cancelled nofun nofun
  | closed now =>
    dsimp only [Session.step]
    unfold closed
    split
    · rename_i h
      exact .closed h
    · exact .unchanged nofun trivial
  | tick now =>
    dsimp only [Session.step]
    unfold Session.tick
    split
    · exact .cancelled nofun nofun
    · exact .unchanged nofun trivial

end Outcomes

/-! ## What authority rests on -/

def Committed (history : SessionHistory) (epoch turn : Nat) : Prop :=
  ∃ earlier now since, history = earlier ++ (.inputCommitted epoch turn now, .accepted true) :: since

/-- After its commit the turn's plan was claimed at `now`, and what came since. -/
def Claimed (history : SessionHistory) (epoch turn : Nat) (confirmation : Bool) (now : Nat) (since : SessionHistory) : Prop :=
  ∃ earlier, history = earlier ++ (.claimPlan epoch turn confirmation now, .accepted true) :: since ∧
    Committed earlier epoch turn

section

variable (limits : Limits)

/-- The claim needed no confirmation, or was confirmed in time. -/
def Authorised (history : SessionHistory) (epoch turn : Nat) : Prop :=
  ∃ confirmation now since, Claimed history epoch turn confirmation now since ∧
    (confirmation = true → ∃ confirmedAt, (.confirm epoch turn confirmedAt, .accepted true) ∈ since ∧
      confirmedAt ≤ now + limits.confirmationMs)

/-- The state's standing: what has been granted in the present turn. -/
def Standing (history : SessionHistory) (s : Session) : Prop :=
  match s.state with
  | .planning => Committed history s.sessionEpoch s.turnEpoch
  | .confirming => ∃ since, Claimed history s.sessionEpoch s.turnEpoch true s.enteredAt since
  | .executing => Authorised s.limits history s.sessionEpoch s.turnEpoch
  | _ => True

variable {turn : Nat}

theorem Committed.snoc {history : SessionHistory} {epoch : Nat} (h : Committed history epoch turn)
    (x : SessionCall × SessionAnswer) : Committed (history ++ [x]) epoch turn := by
  obtain ⟨earlier, now, since, rfl⟩ := h
  exact ⟨earlier, now, since ++ [x], by simp⟩

theorem Claimed.snoc {history since : SessionHistory} {epoch now : Nat} {confirmation : Bool}
    (h : Claimed history epoch turn confirmation now since) (x : SessionCall × SessionAnswer) :
    Claimed (history ++ [x]) epoch turn confirmation now (since ++ [x]) := by
  obtain ⟨earlier, rfl, hcommitted⟩ := h
  exact ⟨earlier, by simp, hcommitted⟩

theorem Authorised.snoc {limits : Limits} {history : SessionHistory} {epoch : Nat}
    (h : Authorised limits history epoch turn) (x : SessionCall × SessionAnswer) :
    Authorised limits (history ++ [x]) epoch turn := by
  obtain ⟨confirmation, now, since, hclaimed, hconfirmed⟩ := h
  refine ⟨confirmation, now, since ++ [x], hclaimed.snoc x, fun hconfirmation => ?_⟩
  obtain ⟨confirmedAt, hmem, htime⟩ := hconfirmed hconfirmation
  exact ⟨confirmedAt, mem_append_left _ hmem, htime⟩

theorem Standing.snoc {history : SessionHistory} {s : Session} (h : Standing history s)
    (x : SessionCall × SessionAnswer) : Standing (history ++ [x]) s := by
  unfold Standing at h ⊢
  split at h
  · exact h.snoc x
  · obtain ⟨since, h⟩ := h
    exact ⟨since ++ [x], h.snoc x⟩
  · exact h.snoc x
  · trivial

/-! ## The claims of a turn -/

def SessionCall.claims (turn : Nat) : SessionCall → Bool
  | .claimPlan _ t _ _ => t == turn
  | _ => false

def claimCount (turn : Nat) (history : SessionHistory) : Nat :=
  history.countP fun x => x.1.claims turn && decide (x.2 matches .accepted true)

theorem claimCount_snoc (turn : Nat) (history : SessionHistory) (x : SessionCall × SessionAnswer) :
    claimCount turn (history ++ [x]) =
      claimCount turn history + if x.1.claims turn && decide (x.2 matches .accepted true) then 1 else 0 := by
  unfold claimCount
  rw [countP_append, countP_singleton]

theorem claimCount_other {x : SessionCall × SessionAnswer} (h : x.1.claims turn = false)
    (history : SessionHistory) : claimCount turn (history ++ [x]) = claimCount turn history := by
  rw [claimCount_snoc, h]
  rfl

theorem claimCount_denied {x : SessionCall × SessionAnswer} (h : x.2.Denied) (history : SessionHistory) :
    claimCount turn (history ++ [x]) = claimCount turn history := by
  rw [claimCount_snoc]
  obtain ⟨call, answer⟩ := x
  cases answer with
  | accepted ok =>
    cases ok with
    | true => exact h.elim
    | false => simp
  | activated result | done | expired reason => simp

/-! ## The invariant -/

theorem wrappingSucc_lt {n : Nat} (h : n ≤ bound) (hbound : bound < 2 ^ 63) : wrappingSucc n = n + 1 := by
  unfold wrappingSucc
  omega

/-- After a history of fewer than `2^63` calls. -/
structure Kept (history : SessionHistory) (s : Session) : Prop where
  limits : s.limits = limits
  permit : s.permit.isSome = s.state.live
  session : s.sessionEpoch ≤ history.length
  turn : s.turnEpoch ≤ history.length
  once : ∀ turn, claimCount turn history ≤ 1
  future : ∀ turn, s.turnEpoch < turn → claimCount turn history = 0
  unclaimed : s.planClaimed = false → claimCount s.turnEpoch history = 0
  returned : ∀ permit now epoch, (.activate permit now, .activated (.ok epoch)) ∈ history → epoch ≤ s.sessionEpoch
  standing : Standing history s

theorem kept_new : Kept limits [] (Session.new limits) where
  limits := rfl
  permit := rfl
  session := Nat.le_refl _
  turn := Nat.le_refl _
  once _ := Nat.zero_le _
  future _ _ := rfl
  unclaimed _ := rfl
  returned _ _ _ h := (not_mem_nil h).elim
  standing := trivial

section Kept

variable {limits : Limits} {history : SessionHistory} {s : Session}

variable {x : SessionCall × SessionAnswer}

open SessionCall

theorem Kept.returned_snoc (h : Kept limits history s)
    (hx : ∀ permit now epoch, x ≠ (SessionCall.activate permit now, activated (.ok epoch)))
    (hbound : s.sessionEpoch ≤ bound) :
    ∀ permit now epoch, (SessionCall.activate permit now, activated (.ok epoch)) ∈ history ++ [x] →
      epoch ≤ bound := by
  intro permit now epoch hmem
  rcases mem_append.1 hmem with hmem | hmem
  · exact Nat.le_trans (h.returned permit now epoch hmem) hbound
  · exact absurd (mem_singleton.1 hmem).symm (hx permit now epoch)

/-- A call that claims nothing and moves neither epoch, to a state that stands. -/
theorem Kept.same (h : Kept limits history s) (hclaims : ∀ turn, claimCount turn (history ++ [x]) = claimCount turn history)
    (hx : ∀ permit now epoch, x ≠ (SessionCall.activate permit now, activated (.ok epoch)))
    (hlimits : s'.limits = s.limits) (hpermit : s'.permit.isSome = s'.state.live)
    (hsession : s'.sessionEpoch = s.sessionEpoch) (hturn : s'.turnEpoch = s.turnEpoch)
    (hplan : s'.planClaimed = s.planClaimed) (hstanding : Standing (history ++ [x]) s') :
    Kept limits (history ++ [x]) s' where
  limits := hlimits.trans h.limits
  permit := hpermit
  session := by
    rw [hsession, length_append]
    exact Nat.le_add_right_of_le h.session
  turn := by
    rw [hturn, length_append]
    exact Nat.le_add_right_of_le h.turn
  once turn := (hclaims turn).symm ▸ h.once turn
  future turn hlt := (hclaims turn).symm ▸ h.future turn (hturn ▸ hlt)
  unclaimed hfree := by
    rw [hclaims, hturn]
    exact h.unclaimed (hplan ▸ hfree)
  returned := h.returned_snoc hx (Nat.le_of_eq hsession.symm)
  standing := hstanding

theorem Kept.nextTurn (h : Kept limits history s)
    (hlength : history.length < 2 ^ 63) (hclaims : ∀ turn, claimCount turn (history ++ [x]) = claimCount turn history)
    (hlimits : s'.limits = s.limits) (hpermit : s'.permit.isSome = s'.state.live)
    (hsession : s'.sessionEpoch = s.sessionEpoch ∨ s'.sessionEpoch = wrappingSucc s.sessionEpoch)
    (hturn : s'.turnEpoch = wrappingSucc s.turnEpoch)
    (hreturned : ∀ permit now epoch, x = (SessionCall.activate permit now, activated (.ok epoch)) →
      epoch = s'.sessionEpoch)
    (hstanding : Standing (history ++ [x]) s') : Kept limits (history ++ [x]) s' := by
  rw [wrappingSucc_lt h.turn hlength] at hturn
  rw [wrappingSucc_lt h.session hlength] at hsession
  have hgrown : s.sessionEpoch ≤ s'.sessionEpoch ∧ s'.sessionEpoch ≤ s.sessionEpoch + 1 := by omega
  have hsnoc : (history ++ [x]).length = history.length + 1 := by simp
  have hsession' := h.session
  have hturn' := h.turn
  refine ⟨hlimits.trans h.limits, hpermit, by omega, by omega, fun turn => ?_, fun turn hlt => ?_, fun _ => ?_, ?_, hstanding⟩
  · rw [hclaims]
    exact h.once turn
  · rw [hclaims]
    exact h.future turn (by omega)
  · rw [hclaims]
    exact h.future _ (by omega)
  · intro permit now epoch hmem
    rcases mem_append.1 hmem with hmem | hmem
    · exact Nat.le_trans (h.returned permit now epoch hmem) hgrown.1
    · exact Nat.le_of_eq (hreturned permit now epoch (mem_singleton.1 hmem).symm)

theorem claims_eq_false {call : SessionCall} (h : ∀ epoch turn confirmation now, call ≠ .claimPlan epoch turn confirmation now)
    (turn : Nat) : call.claims turn = false := by
  cases call with
  | claimPlan epoch t confirmation now => exact absurd rfl (h epoch t confirmation now)
  | _ => rfl

def SessionCall.activates : SessionCall → Bool
  | .activate _ _ => true
  | _ => false

theorem ne_activation {call : SessionCall} (h : call.activates = false) (permit : AssistantPermit)
    (now epoch : Nat) : (call, answer) ≠ (activate permit now, activated (.ok epoch)) := by
  intro heq
  rw [(Prod.mk.inj heq).1] at h
  exact Bool.noConfusion h

theorem Kept.step (h : Kept limits history s) (hlength : history.length < 2 ^ 63) (call : SessionCall) :
    Kept limits (history ++ [(call, (s.step call).2)]) (s.step call).1 := by
  have houtcome := outcome_step s call
  generalize (s.step call).1 = s' at houtcome ⊢
  generalize (s.step call).2 = answer at houtcome ⊢
  cases houtcome with
  | unchanged _ hdenied =>
    refine h.same (fun turn => claimCount_denied hdenied history) ?_ rfl h.permit rfl rfl rfl (h.standing.snoc _)
    intro permit now epoch heq
    rw [(Prod.mk.inj heq).2] at hdenied
    exact hdenied
  | activated _ =>
    refine h.nextTurn hlength (fun turn => claimCount_other rfl history) rfl rfl (.inr rfl) rfl ?_ trivial
    intro permit now epoch heq
    simp only [Prod.mk.injEq, activated.injEq, Except.ok.injEq] at heq
    exact heq.2.symm
  | ready hlive =>
    exact h.same (fun turn => claimCount_other rfl history) (ne_activation rfl) rfl hlive rfl rfl rfl trivial
  | candidate _ | dropped =>
    exact h.same (fun turn => claimCount_other rfl history) (ne_activation rfl) rfl h.permit rfl rfl rfl (h.standing.snoc _)
  | spoken hstate =>
    refine h.same (fun turn => claimCount_other rfl history) (ne_activation rfl) rfl h.permit rfl rfl rfl ?_
    rw [hstate]
    trivial
  | reopened hlive _ =>
    exact h.nextTurn hlength (fun turn => claimCount_other rfl history) rfl hlive (.inl rfl) rfl (fun _ _ _ heq => absurd heq (ne_activation rfl _ _ _)) trivial
  | committed hlive =>
    exact h.same (fun turn => claimCount_other rfl history) (ne_activation rfl) rfl hlive rfl rfl rfl ⟨history, _, [], rfl⟩
  | @claimed confirmation now hlive hstate hfirst =>
    have hcommitted : Committed history s.sessionEpoch s.turnEpoch := by
      have hstanding := h.standing
      unfold Standing at hstanding
      rw [hstate] at hstanding
      exact hstanding
    have hclaimed : Claimed (history ++ [(.claimPlan s.sessionEpoch s.turnEpoch confirmation now, .accepted true)])
        s.sessionEpoch s.turnEpoch confirmation now [] := ⟨history, rfl, hcommitted⟩
    have hcount : ∀ turn, claimCount turn
        (history ++ [(.claimPlan s.sessionEpoch s.turnEpoch confirmation now, .accepted true)]) =
        claimCount turn history + if s.turnEpoch = turn then 1 else 0 := by
      intro turn
      rw [claimCount_snoc]
      simp [claims]
    have hfree := h.unclaimed hfirst
    refine ⟨h.limits, ?_, ?_, ?_, fun turn => ?_, fun turn hlt => ?_, fun hplan => ?_,
      h.returned_snoc (fun _ _ _ heq => SessionCall.noConfusion (Prod.mk.inj heq).1) (Nat.le_refl _), ?_⟩
    · cases confirmation with
      | false | true => exact hlive
    · rw [length_append]
      exact Nat.le_add_right_of_le h.session
    · rw [length_append]
      exact Nat.le_add_right_of_le h.turn
    · rw [hcount]
      split
      · rename_i hown
        rw [← hown, hfree]
      · exact h.once turn
    · have hlt' : s.turnEpoch < turn := hlt
      rw [hcount, if_neg (Nat.ne_of_lt hlt'), h.future turn hlt']
    · exact Bool.noConfusion (show true = false from hplan)
    · cases confirmation with
      | false => exact ⟨false, now, [], hclaimed, fun h => Bool.noConfusion h⟩
      | true => exact ⟨[], hclaimed⟩
  | @confirmed now hlive hstate htime =>
    refine h.same (fun turn => claimCount_other rfl history) (ne_activation rfl) rfl hlive rfl rfl rfl ?_
    have hstanding := h.standing
    unfold Standing at hstanding
    rw [hstate] at hstanding
    obtain ⟨since, hclaimed⟩ := hstanding
    exact ⟨true, s.enteredAt, _, hclaimed.snoc _, fun _ =>
      ⟨now, mem_append_right _ (mem_singleton_self _), htime⟩⟩
  | responded hlive | followed hlive _ =>
    exact h.same (fun turn => claimCount_other rfl history) (ne_activation rfl) rfl hlive rfl rfl rfl trivial
  | interrupted hlive =>
    exact h.nextTurn hlength (fun turn => claimCount_other rfl history) rfl hlive (.inl rfl) rfl (fun _ _ _ heq => absurd heq (ne_activation rfl _ _ _)) trivial
  | cancelled hcall hanswer =>
    refine h.nextTurn hlength (fun turn => claimCount_other (claims_eq_false hcall turn) history) rfl rfl (.inr rfl) rfl ?_
      trivial
    intro permit now epoch heq
    exact absurd (Prod.mk.inj heq).2 (hanswer epoch)
  | closed hstate =>
    refine h.same (fun turn => claimCount_other rfl history) (ne_activation rfl) rfl ?_ rfl rfl rfl trivial
    have hpermit := h.permit
    rcases hstate with hstate | hstate
    · rw [hstate] at hpermit
      exact hpermit
    · rw [hstate] at hpermit
      exact hpermit

end Kept

/-! ## Epochs -/

theorem epochs_step {s : Session} (hsession : s.sessionEpoch ≤ bound) (hturn : s.turnEpoch ≤ bound)
    (hbound : bound < 2 ^ 63) (call : SessionCall) :
    s.sessionEpoch ≤ (s.step call).1.sessionEpoch ∧ s.turnEpoch ≤ (s.step call).1.turnEpoch := by
  have hs := wrappingSucc_lt hsession hbound
  have ht := wrappingSucc_lt hturn hbound
  have houtcome := outcome_step s call
  generalize (s.step call).1 = s' at houtcome ⊢
  generalize (s.step call).2 = answer at houtcome
  cases houtcome with
  | activated _ | cancelled _ _ => exact ⟨Nat.le_of_lt (Nat.lt_of_lt_of_eq (Nat.lt_succ_self _) hs.symm),
      Nat.le_of_lt (Nat.lt_of_lt_of_eq (Nat.lt_succ_self _) ht.symm)⟩
  | reopened _ _ | interrupted _ => exact ⟨Nat.le_refl _, Nat.le_of_lt (Nat.lt_of_lt_of_eq (Nat.lt_succ_self _) ht.symm)⟩
  | _ => exact ⟨Nat.le_refl _, Nat.le_refl _⟩

def Cancels (s : Session) (call : SessionCall) : Prop :=
  (∃ reason now, call = .cancel reason now) ∨ s.state ≠ .closing ∧ (s.step call).1.state = .closing

variable {call : SessionCall}

theorem cancels_epoch {s : Session} (hsession : s.sessionEpoch ≤ bound) (hbound : bound < 2 ^ 63)
    (h : Cancels s call) : (s.step call).1.sessionEpoch = s.sessionEpoch + 1 := by
  have hs := wrappingSucc_lt hsession hbound
  rcases h with ⟨reason, now, rfl⟩ | ⟨hopen, hclosing⟩
  · exact hs
  · have houtcome := outcome_step s call
    generalize (s.step call).1 = s' at houtcome hclosing ⊢
    generalize (s.step call).2 = answer at houtcome
    cases houtcome with
    | cancelled _ _ => exact hs
    | unchanged _ _ | candidate _ | dropped _ _ | spoken _ => exact absurd hclosing hopen
    | @claimed confirmation _ _ _ _ =>
      cases confirmation with
      | false | true => cases hclosing
    | _ => cases hclosing

/-! ## Runs -/

section

variable (calls : List SessionCall)

def reached : Session := after Session.step (Session.new limits) calls

def historyOf : SessionHistory :=
  trace Session.step (Session.new limits) calls

theorem reached_snoc (call : SessionCall) :
    reached limits (calls ++ [call]) = ((reached limits calls).step call).1 :=
  after_append _ _ _

theorem kept_reached {calls : List SessionCall} (hlength : calls.length < 2 ^ 63) :
    Kept limits (historyOf limits calls) (reached limits calls) := by
  have hkept : (historyOf limits calls).length < 2 ^ 63 → Kept limits (historyOf limits calls) (reached limits calls) :=
    trace_invariant (I := fun h s => h.length < 2 ^ 63 → Kept limits h s)
      (fun h s call hkept hlt => by
        have hlt' : h.length < 2 ^ 63 := by
          rw [length_append] at hlt
          exact Nat.lt_of_le_of_lt (Nat.le_add_right _ _) hlt
        exact (hkept hlt').step hlt' call)
      (fun _ => kept_new limits) calls
  refine hkept ?_
  have hlen := congrArg length (@map_fst_trace _ _ _ Session.step (Session.new limits) calls)
  rw [length_map] at hlen
  exact Nat.lt_of_le_of_lt (Nat.le_of_eq hlen) hlength

theorem length_historyOf :
    (historyOf limits calls).length = calls.length := by
  have hlen := congrArg length (@map_fst_trace _ _ _ Session.step (Session.new limits) calls)
  rw [length_map] at hlen
  exact hlen

theorem epochs_reached (before rest : List SessionCall) (hlength : (before ++ rest).length < 2 ^ 63) :
    (reached limits before).sessionEpoch ≤ (reached limits (before ++ rest)).sessionEpoch ∧
      (reached limits before).turnEpoch ≤ (reached limits (before ++ rest)).turnEpoch := by
  induction rest using reverseRecOn with
  | nil =>
    rw [append_nil]
    exact ⟨Nat.le_refl _, Nat.le_refl _⟩
  | append_singleton rest call ih =>
    rw [← append_assoc] at hlength ⊢
    have hlt : (before ++ rest).length < 2 ^ 63 := by
      rw [length_append] at hlength
      exact Nat.lt_of_le_of_lt (Nat.le_add_right _ _) hlength
    have hkept := kept_reached limits hlt
    have hbound := length_historyOf limits (before ++ rest)
    obtain ⟨hsession, hturn⟩ := epochs_step (hbound ▸ hkept.session) (hbound ▸ hkept.turn) hlt call
    rw [reached_snoc]
    exact ⟨Nat.le_trans (ih hlt).1 hsession, Nat.le_trans (ih hlt).2 hturn⟩

/-- The fences of a session's authority, over every state of a run. -/
structure Fenced : Prop where
  /-- Execution rests on a commit and on the one claim of the turn, confirmed in time where it asked for that. -/
  authority : ∀ before rest, calls = before ++ rest → (reached limits before).executionAllowed = true →
    Authorised limits (historyOf limits before) (reached limits before).sessionEpoch (reached limits before).turnEpoch ∧
      claimCount (reached limits before).turnEpoch (historyOf limits before) = 1
  once : ∀ turn, claimCount turn (historyOf limits calls) ≤ 1
  /-- A pair of epochs that has been left does not come back. -/
  fresh : ∀ before middle rest, calls = before ++ middle ++ rest →
    ((reached limits (before ++ middle)).sessionEpoch, (reached limits (before ++ middle)).turnEpoch) ≠
      ((reached limits before).sessionEpoch, (reached limits before).turnEpoch) →
    ((reached limits calls).sessionEpoch, (reached limits calls).turnEpoch) ≠
      ((reached limits before).sessionEpoch, (reached limits before).turnEpoch)
  /-- After a cancellation the epochs handed out before it are refused. -/
  revoked : ∀ before call middle late rest, calls = before ++ call :: (middle ++ late :: rest) →
    Cancels (reached limits before) call → ∀ permit now epoch,
      (.activate permit now, .activated (.ok epoch)) ∈ historyOf limits before → late.epoch = some epoch →
      (reached limits (before ++ call :: middle)).step late = (reached limits (before ++ call :: middle), .accepted false)
  permit : ∀ before rest, calls = before ++ rest → ((reached limits before).permit.isSome = true ↔
    (reached limits before).state ≠ .idle ∧ (reached limits before).state ≠ .closing ∧ (reached limits before).state ≠ .error)

theorem live_iff {state : State} : state.live = true ↔ state ≠ .idle ∧ state ≠ .closing ∧ state ≠ .error := by
  cases state <;> decide

theorem fenced {calls : List SessionCall} (hlength : calls.length < 2 ^ 63) : Fenced limits calls := by
  have hpart : ∀ {before rest : List SessionCall}, calls = before ++ rest → before.length < 2 ^ 63 := by
    rintro before rest rfl
    rw [length_append] at hlength
    exact Nat.lt_of_le_of_lt (Nat.le_add_right _ _) hlength
  refine ⟨fun before rest heq hallowed => ?_, fun turn => ?_, fun before middle rest heq hleft => ?_,
    fun before call middle late rest heq hcancels permit now epoch hmem hepoch => ?_, fun before rest heq => ?_⟩
  · have hkept := kept_reached limits (hpart heq)
    simp only [executionAllowed, Bool.and_eq_true, beq_iff_eq] at hallowed
    have hstanding := hkept.standing
    unfold Standing at hstanding
    rw [hallowed.1, hkept.limits] at hstanding
    refine ⟨hstanding, Nat.le_antisymm (hkept.once _) ?_⟩
    obtain ⟨confirmation, now, since, ⟨earlier, hhistory, -⟩, -⟩ := hstanding
    refine countP_pos_iff.2 ⟨_, hhistory ▸ mem_append_right _ mem_cons_self, ?_⟩
    simp [SessionCall.claims]
  · exact (kept_reached limits hlength).once turn
  · subst heq
    have hfirst := epochs_reached limits before middle (hpart rfl)
    have hsecond := epochs_reached limits (before ++ middle) rest hlength
    intro hback
    rw [Prod.mk.injEq] at hback
    refine hleft (Prod.ext ?_ ?_)
    · omega
    · omega
  · subst heq
    have hlt : before.length < 2 ^ 63 := hpart rfl
    have hkept := kept_reached limits hlt
    have hreturned := hkept.returned permit now epoch hmem
    have hraised := cancels_epoch (length_historyOf limits before ▸ hkept.session) hlt hcancels
    rw [← reached_snoc] at hraised
    have hgrown := epochs_reached limits (before ++ [call]) middle (by
      simp only [length_append, length_cons, length_nil] at hlength ⊢
      omega)
    rw [append_assoc, singleton_append] at hgrown
    exact step_stale hepoch (by omega)
  · rw [(kept_reached limits (hpart heq)).permit]
    exact live_iff

/-! ## The end of a follow-up -/

def grace : SessionCall × SessionAnswer → Option Nat
  | (.localSpeechCandidate _ _ now, .accepted true) => some (saturatingAdd now limits.startGraceMs)
  | _ => none

def firstGrace (history : SessionHistory) : Option Nat := history.findSome? (grace limits)

/-- Within one follow-up, a tick later than its deadline and 20 ms and than the grace of its first candidate ends
the session. -/
def FollowUpEnds : Prop :=
  ∀ before epoch turn opened middle now rest,
    calls = before ++ .feedbackCompleted epoch turn opened :: (middle ++ .tick now :: rest) →
    (reached limits before).state ≠ .followUp →
    (reached limits (before ++ [.feedbackCompleted epoch turn opened])).state = .followUp →
    Along (fun s call => (s.step call).1.state = .followUp) Session.step
      (reached limits (before ++ [.feedbackCompleted epoch turn opened])) middle →
    saturatingAdd opened limits.followUpMs + 20 < now →
    (∀ expiry ∈ firstGrace limits (trace Session.step
      (reached limits (before ++ [.feedbackCompleted epoch turn opened])) middle), expiry < now) →
    ((reached limits (before ++ .feedbackCompleted epoch turn opened :: middle)).step (.tick now)).2 =
      .expired (some "follow_up_timeout")

end

/-- A speech start that comes too late finds no candidate to drop. -/
def GraceKept (s : Session) : SessionCall → Prop
  | .speechStarted epoch now => s.isMatch epoch s.turnEpoch = true → s.tooLate (s.captured now) = true → s.candidate = none
  | _ => True

/-- The follow-up since it was opened: its deadline, and the candidate, which is the first one. -/
structure Waiting (deadline : Nat) (history : SessionHistory) (s : Session) : Prop where
  state : s.state = .followUp
  same : s.limits = limits
  deadline : s.followUpDeadline = some deadline
  candidate : s.candidate.map Prod.snd = firstGrace limits history

theorem firstGrace_snoc (history : SessionHistory) (x : SessionCall × SessionAnswer) :
    firstGrace limits (history ++ [x]) = (firstGrace limits history).or (grace limits x) := by
  unfold firstGrace
  rw [findSome?_append, findSome?_cons, findSome?_nil]
  cases grace limits x with
  | none | some expiry => rfl

theorem grace_denied {limits : Limits} (h : answer.Denied) : grace limits (call, answer) = none := by
  unfold grace
  split
  · rename_i heq
    rw [(Prod.mk.inj heq).2] at h
    exact h.elim
  · rfl

theorem Waiting.step {limits : Limits} {deadline : Nat} {history : SessionHistory} {s : Session}
    (h : Waiting limits deadline history s) (hkept : GraceKept s call)
    (hstays : (s.step call).1.state = .followUp) :
    Waiting limits deadline (history ++ [(call, (s.step call).2)]) (s.step call).1 := by
  have houtcome := outcome_step s call
  generalize (s.step call).1 = s' at houtcome hstays ⊢
  generalize (s.step call).2 = answer at houtcome ⊢
  have hopen := h.state
  cases houtcome with
  | unchanged _ hdenied =>
    refine ⟨hopen, h.same, h.deadline, ?_⟩
    rw [firstGrace_snoc, grace_denied hdenied, ← h.candidate, or_none]
  | candidate hnone =>
    refine ⟨hopen, h.same, h.deadline, ?_⟩
    rw [firstGrace_snoc, ← h.candidate, hnone]
    rw [h.same]
    rfl
  | dropped hmatch hlate =>
    -- nothing is dropped
    refine ⟨hopen, h.same, h.deadline, ?_⟩
    rw [firstGrace_snoc, ← h.candidate, hkept hmatch hlate]
    rfl
  | spoken hstate => exact noConfusion (hopen.symm.trans hstate)
  | @claimed confirmation _ _ _ _ =>
    cases confirmation with
    | false | true => exact noConfusion hstays
  | followed _ hstate => exact noConfusion (hopen.symm.trans hstate)
  | _ => exact noConfusion hstays

theorem step_tick (s : Session) (now : Nat) : (s.step (.tick now)).2 = .expired (s.expiry now) := by
  dsimp only [Session.step]
  unfold Session.tick
  cases s.expiry now with
  | none | some reason => rfl

theorem Waiting.expires {limits : Limits} {deadline : Nat} {history : SessionHistory} {s : Session}
    (h : Waiting limits deadline history s) {now : Nat} (hdeadline : deadline + 20 < now)
    (hgrace : ∀ expiry ∈ firstGrace limits history, expiry < now) :
    (s.step (.tick now)).2 = .expired (some "follow_up_timeout") := by
  have hlate : (s.followUpDeadline.any fun d => decide (now > saturatingAdd d 20)) = true := by
    rw [h.deadline, any_some, decide_eq_true_iff]
    unfold saturatingAdd
    omega
  have hover : (s.candidate.any fun c => decide (now ≤ c.2)) = false := by
    rw [← h.candidate] at hgrace
    cases hc : s.candidate with
    | none => rfl
    | some c =>
      rw [any_some, decide_eq_false_iff_not, Nat.not_le]
      exact hgrace c.2 (by rw [hc]; rfl)
  have hexpiry : s.expiry now = some "follow_up_timeout" := by
    unfold expiry
    rw [h.state]
    rw [if_pos hlate, hover]
    rfl
  rw [step_tick, hexpiry]

/-- Over every run of fewer than `2^63` calls the session's authority is fenced; where moreover no late speech
start drops a candidate, each follow-up ends by its deadline or the grace of its first candidate. -/
theorem session_fenced {calls : List SessionCall} (hlength : calls.length < 2 ^ 63) :
    Fenced limits calls ∧
      (Along GraceKept Session.step (Session.new limits) calls → FollowUpEnds limits calls) := by
  refine ⟨fenced limits hlength, ?_⟩
  rintro hgraces before epoch turn opened middle now rest rfl hclosed hopen hstays hdeadline hfirst
  have hkept := @kept_reached limits before (by
    rw [length_append] at hlength
    exact Nat.lt_of_le_of_lt (Nat.le_add_right _ _) hlength)
  have hgraces' := (along_append.1 hgraces).2
  -- the follow-up has just been opened
  have hwaiting : Waiting limits (saturatingAdd opened limits.followUpMs) []
      (reached limits (before ++ [.feedbackCompleted epoch turn opened])) := by
    rw [reached_snoc] at hopen ⊢
    have houtcome := outcome_step (reached limits before) (.feedbackCompleted epoch turn opened)
    generalize ((reached limits before).step (.feedbackCompleted epoch turn opened)).1 = s' at houtcome hopen ⊢
    generalize ((reached limits before).step (.feedbackCompleted epoch turn opened)).2 = answer at houtcome
    cases houtcome with
    | unchanged _ _ => exact absurd hopen hclosed
    | followed _ _ =>
      refine ⟨rfl, hkept.limits, ?_, rfl⟩
      rw [hkept.limits]
    | cancelled _ _ => exact State.noConfusion hopen
  have hmiddle : Along (fun s call => GraceKept s call ∧ (s.step call).1.state = .followUp) Session.step
      (reached limits (before ++ [.feedbackCompleted epoch turn opened])) middle := by
    rw [reached_snoc] at hstays ⊢
    exact along_and (along_append.1 hgraces'.2).1 hstays
  have hend := trace_invariant_along (I := Waiting limits (saturatingAdd opened limits.followUpMs))
    (fun _ _ _ hcall h => h.step hcall.1 hcall.2) hwaiting hmiddle
  have hreached : after Session.step (reached limits (before ++ [.feedbackCompleted epoch turn opened])) middle =
      reached limits (before ++ .feedbackCompleted epoch turn opened :: middle) := by
    unfold reached
    rw [← after_append, append_assoc, singleton_append]
  rw [hreached] at hend
  exact hend.expires hdeadline hfirst

end

namespace Sample

def permit : AssistantPermit := { assistantSessionId := "s1", generation := 1 }

/-- A turn up to its follow-up, whose deadline is then 5004. -/
def toFollowUp : List SessionCall :=
  [.activate permit 0, .ready 1 1, .speechStarted 1 1, .inputCommitted 1 1 2, .claimPlan 1 1 true 2, .confirm 1 1 3,
    .respond 1 1 3]

/-- A candidate, a speech start that comes too late and drops it, and another candidate. -/
def noisy : List SessionCall := [.localSpeechCandidate 1 4999 5000, .speechStarted 1 6501, .localSpeechCandidate 1 5000 6502]

end Sample

instance (s : Session) : ∀ call, Decidable (GraceKept s call)
  | .speechStarted .. => inferInstanceAs (Decidable (_ → _ → _))
  | .activate .. | .ready .. | .localSpeechCandidate .. | .inputCommitted .. | .claimPlan .. | .confirm .. | .respond ..
  | .feedbackCompleted .. | .interrupt .. | .cancel .. | .closed _ | .tick _ => isTrue trivial

theorem session_fenced_turn :
    let calls := Sample.toFollowUp ++ [.feedbackCompleted 1 1 4, .localSpeechCandidate 1 5003 5010, .tick 6511]
    (calls.length < 2 ^ 63 ∧ Along GraceKept Session.step (Session.new {}) calls) ∧
      Fenced {} calls ∧ FollowUpEnds {} calls := by
  intro calls
  have hlength : calls.length < 2 ^ 63 := by decide
  have hgraces : Along GraceKept Session.step (Session.new {}) calls := by decide +kernel
  exact ⟨⟨hlength, hgraces⟩, (session_fenced {} hlength).1, (session_fenced {} hlength).2 hgraces⟩

def SessionCall.time : SessionCall → Nat
  | .activate _ now | .ready _ now | .localSpeechCandidate _ _ now | .speechStarted _ now | .inputCommitted _ _ now
  | .claimPlan _ _ _ now | .confirm _ _ now | .respond _ _ now | .feedbackCompleted _ _ now | .interrupt _ now
  | .cancel _ now | .closed now | .tick now => now

open Sample

/-- The second candidate holds off the end although the first one's grace is over. -/
theorem second_candidate_outlives_follow_up : ¬ ∀ limits calls, calls.length < 2 ^ 63 →
    (calls.map SessionCall.time).Pairwise (· ≤ ·) → FollowUpEnds limits calls := by
  intro h
  have hends := h {} (toFollowUp ++ .feedbackCompleted 1 1 4 :: (noisy ++ .tick 6503 :: [])) (by decide)
    (by decide +kernel) toFollowUp 1 1 4 noisy 6503 [] rfl (by decide +kernel) (by decide +kernel)
    (by decide +kernel) (by decide) (by decide +kernel)
  have hheld : (reached {} (toFollowUp ++ .feedbackCompleted 1 1 4 :: noisy)).expiry 6503 = none := by
    decide +kernel
  rw [step_tick, hheld] at hends
  cases hends

end Jwm.Eva
