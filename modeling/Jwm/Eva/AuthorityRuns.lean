/-
Guarded execution is authorised, and happens at most once while its record stands. The permit, the last confirmation and the
record of every operation are folded from the events of a run; the state agrees with them after every call.
-/
import Jwm.Eva.AuthorityMoves
import Mathlib.Data.List.Induction

namespace Jwm.Authority

open EvaRuntime KeyMap
open List Option

/-! ## Calls and their readings of the clock -/

def Outcome.ended (o : Outcome) : Bool :=
  match o.result with
  | .ok (status, _) => status != "accepted" && status != "unknown"
  | .error _ => true

def EvaCall.env : EvaCall → EvaEnv
  | .control env _ => env
  | .setStatus env _ => env
  | .confirm env _ => env
  | .tick env => env
  | .guardedExecute env _ _ => env

def EvaCall.readings : EvaCall → List Nat
  | .guardedExecute env _ o => [env.now, o.done]
  | c => [c.env.now]

def readingsOf (calls : List EvaCall) : List Nat := calls.flatMap EvaCall.readings

/-- The operation a call asks for. -/
def EvaCall.operation : EvaCall → Option String
  | .guardedExecute _ args _ => (GuardedRequest.parse args).map (·.operationId)
  | _ => none

/-- An operation that the earlier call ended is not asked for again after the retention from its reservation and before the
one from its end. -/
def EvaCall.Spaced : EvaCall → EvaCall → Prop
  | .guardedExecute env args o, c =>
    o.ended = true ∧ c.operation.isSome = true ∧ (EvaCall.guardedExecute env args o).operation = c.operation →
      c.env.now < env.now + retention ∨ o.done + retention ≤ c.env.now
  | _, _ => True

instance decidableSpaced (earlier c : EvaCall) : Decidable (earlier.Spaced c) := by
  cases earlier <;> unfold EvaCall.Spaced <;> infer_instance

/-- A call, with the events it makes known and its answer. -/
abbrev EvaEntry := EvaCall × List EvaEvent × EvaAnswer

def eventsOf (history : List EvaEntry) : List EvaEvent := history.flatMap fun e => e.2.1

theorem now_mem_readings (c : EvaCall) : c.env.now ∈ c.readings := by
  cases c with
  | guardedExecute env args o => exact mem_cons_self
  | control env args | setStatus env args | confirm env reviewable | tick env => exact mem_singleton_self _

/-! ## What the events tell -/

def permitStep (p : Option AssistantPermit) : EvaEvent → Option AssistantPermit
  | .activated p' => some p'
  | .cancelled _ _ => none
  | _ => p

def currentPermit (events : List EvaEvent) : Option AssistantPermit := events.foldl permitStep none

/-- A confirmation as it was frozen, and what happened since. -/
structure Frozen where
  targets : Json
  expires : Nat
  since : List EvaEvent

def frozenStep (f : Option Frozen) : EvaEvent → Option Frozen
  | .frozen targets expires => some { targets, expires, since := [] }
  | e => f.map fun f => { f with since := f.since ++ [e] }

def lastFrozen (events : List EvaEvent) : Option Frozen := events.foldl frozenStep none

/-- The request an operation was last dispatched for, and the time and the result it ended with. -/
structure Record where
  request : Json
  ended : Option (Nat × OperationResult)
deriving DecidableEq

def Record.finish (t : Nat) (result : OperationResult) (r : Record) : Record := { r with ended := some (t, result) }

def recordStep (id : String) (r : Option Record) : EvaEvent → Option Record
  | .dispatched d => if d.operationId = id then some { request := d.request, ended := none } else r
  | .execution operationId result t => if operationId = id then r.map (Record.finish t result) else r
  | .returned operationId result t => if operationId = id ∧ result.ended = true then r.map (Record.finish t result) else r
  | _ => r

def recordOf (events : List EvaEvent) (id : String) : Option Record := events.foldl (recordStep id) none

/-! ## Executions made known -/

section Executions

variable {α : Type} {step : α → EvaEvent → α}

theorem foldl_same {events : List EvaEvent} (h : ∀ e ∈ events, ∀ a, step a e = a) (a : α) : events.foldl step a = a := by
  induction events with
  | nil => rfl
  | cons e events ih =>
    rw [foldl_cons, h e mem_cons_self, ih fun e' he' => h e' (mem_cons_of_mem _ he')]

theorem mem_executions {operations : KeyMap String Operation} {f : Operation → Option OperationResult} {t : Nat}
    {e : EvaEvent} (h : e ∈ executions operations f t) : ∃ id result, e = .execution id result t := by
  obtain ⟨entry, -, hentry⟩ := mem_filterMap.1 h
  obtain ⟨result, -, rfl⟩ := map_eq_some_iff.1 hentry
  exact ⟨_, result, rfl⟩

end Executions

theorem recordStep_executions (operations : KeyMap String Operation) (f : Operation → Option OperationResult) (t : Nat)
    (id : String) (r : Option Record) :
    (executions operations f t).foldl (recordStep id) r =
      match (operations.get? id).bind f with
      | some result => r.map (Record.finish t result)
      | none => r := by
  obtain ⟨entries, hnodup⟩ := operations
  unfold executions get?
  induction entries generalizing r with
  | nil => rfl
  | cons e entries ih =>
    obtain ⟨hhead, hrest⟩ := nodup_cons.1 hnodup
    have hnone : ∀ e' ∈ executions ⟨entries, hrest⟩ f t, e.1 = id → ∀ a, recordStep id a e' = a := by
      intro e' he' hid a
      obtain ⟨entry, hentry, heq⟩ := mem_filterMap.1 he'
      obtain ⟨result, -, rfl⟩ := map_eq_some_iff.1 heq
      refine if_neg fun hkey => hhead ?_
      rw [hid, ← hkey]
      exact mem_map.2 ⟨entry, hentry, rfl⟩
    by_cases hid : e.1 = id
    · rw [find?_cons_of_pos (p := fun e : String × Operation => e.1 == id) (beq_iff_eq.2 hid), map_some, bind_some, filterMap_cons]
      cases hf : f e.2 with
      | none => exact foldl_same (fun e' he' => hnone e' he' hid) r
      | some result =>
        rw [map_some]
        rw [foldl_cons]
        refine (foldl_same (fun e' he' => hnone e' he' hid) _).trans ?_
        exact if_pos hid
    · rw [find?_cons_of_neg (p := fun e : String × Operation => e.1 == id) (by rwa [beq_iff_eq]), filterMap_cons]
      cases hf : f e.2 with
      | none => exact ih r hrest
      | some result =>
        rw [map_some]
        rw [foldl_cons, show recordStep id r (.execution e.1 result t) = r from if_neg hid]
        exact ih r hrest

/-! ## Moves and what they tell -/

variable {host : Host} {env : EvaEnv} {s s' : EvaRuntime} {events : List EvaEvent}

theorem foldl_executions_same {α : Type} {step : α → EvaEvent → α} (operations : KeyMap String Operation)
    (f : Operation → Option OperationResult) (t : Nat) (h : ∀ id result t a, step a (.execution id result t) = a) (a : α) :
    (executions operations f t).foldl step a = a := by
  refine foldl_same (fun e he a => ?_) a
  obtain ⟨id, result, rfl⟩ := mem_executions he
  exact h id result t a

theorem Move.permit (h : Move env s events s') : s'.permit = events.foldl permitStep s.permit := by
  induction h with
  | rest hp hc ho => exact hp
  | cancel s reason =>
    unfold EvaRuntime.cancel
    cases s.permit with
    | none | some p => rfl
  | activate hp hc hp' hc' ho => exact hp'
  | freeze hp hc htargets hexpires happroved ho => exact hp
  | confirm hp hc hlive hp' hc' ho | expire hc hp' hc' ho => exact hp'
  | observe s => exact (foldl_executions_same _ _ _ (fun _ _ _ _ => rfl) _).symm
  | trans h h' ih ih' => rw [foldl_append, ← ih, ih']

theorem Move.not_dispatched (h : Move env s events s') (d : Dispatch) : .dispatched d ∉ events := by
  induction h with
  | rest hp hc ho => exact not_mem_nil
  | cancel s reason =>
    intro hmem
    obtain ⟨p, -, hp⟩ := map_eq_some_iff.1 (mem_toList.1 hmem)
    cases hp
  | activate hp hc hp' hc' ho => exact fun hmem => nomatch mem_singleton.1 hmem
  | freeze hp hc htargets hexpires happroved ho => exact fun hmem => nomatch mem_singleton.1 hmem
  | confirm hp hc hlive hp' hc' ho | expire hc hp' hc' ho => exact fun hmem => nomatch mem_singleton.1 hmem
  | observe s =>
    intro hmem
    obtain ⟨id, result, heq⟩ := mem_executions hmem
    cases heq
  | trans h h' ih ih' => exact fun hmem => (mem_append.1 hmem).elim ih ih'

theorem Move.fresh (h : Move env s events s') {id : String} (hid : s.operations.get? id = none) :
    s'.operations.get? id = none := by
  induction h with
  | rest hp hc ho => rwa [ho]
  | cancel s reason => exact hid
  | activate hp hc hp' hc' ho => rwa [ho]
  | freeze hp hc htargets hexpires happroved ho | confirm hp hc hlive hp' hc' ho | expire hc hp' hc' ho => rwa [ho]
  | observe s =>
    unfold tickOperations
    rw [get?_retain, get?_mapValues, hid]
    rfl
  | trans h h' ih ih' => exact ih' (ih hid)

/-! ## The confirmation -/

/-- The confirmation the state holds is the one frozen last: approved only under the present permit and before it
expired, with the positions of its dispatches used. -/
structure Standing (f : Option Frozen) (permit : Option AssistantPermit) (c : Confirmation) : Prop where
  frozen : ∃ since, f = some { targets := c.targets, expires := c.expires, since } ∧
    (c.approved = true → ∃ p token planHash t, permit = some p ∧ .confirmed token planHash (some p) t ∈ since ∧ t < c.expires) ∧
    ∀ d, .dispatched d ∈ since → ∀ i, d.position = some i → c.used[i]? ≠ some false

theorem Standing.event {f : Option Frozen} {permit : Option AssistantPermit} {c : Confirmation} (h : Standing f permit c)
    {e : EvaEvent} (hfrozen : ∀ f : Frozen, frozenStep (some f) e = some { f with since := f.since ++ [e] })
    (hdispatched : ∀ d, e ≠ .dispatched d) : Standing (frozenStep f e) permit c := by
  obtain ⟨since, rfl, happroved, hused⟩ := h.frozen
  refine ⟨since ++ [e], hfrozen _, fun ha => ?_, fun d hd i hi => ?_⟩
  · obtain ⟨p, token, planHash, t, hp, hmem, hlt⟩ := happroved ha
    exact ⟨p, token, planHash, t, hp, mem_append_left _ hmem, hlt⟩
  · rcases mem_append.1 hd with hd | hd
    · exact hused d hd i hi
    · exact absurd (mem_singleton.1 hd).symm (hdispatched d)

theorem Standing.executed {f : Option Frozen} {permit : Option AssistantPermit} {c : Confirmation}
    (h : Standing f permit c) (operations : KeyMap String Operation) (complete : Operation → Option OperationResult)
    (t : Nat) : Standing ((executions operations complete t).foldl frozenStep f) permit c := by
  have hmem : ∀ e ∈ executions operations complete t, ∃ id result, e = .execution id result t := fun e => mem_executions
  generalize executions operations complete t = events at hmem
  induction events generalizing f with
  | nil => exact h
  | cons e events ih =>
    obtain ⟨id, result, rfl⟩ := hmem e mem_cons_self
    exact ih (h.event (fun _ => rfl) nofun) fun e' he' => hmem e' (mem_cons_of_mem _ he')

theorem Move.standing (h : Move env s events s') {f : Option Frozen}
    (hstanding : ∀ c, s.confirmation = some c → Standing f s.permit c) :
    ∀ c, s'.confirmation = some c → Standing (events.foldl frozenStep f) s'.permit c := by
  induction h generalizing f with
  | rest hp hc ho =>
    rw [hp, hc]
    exact hstanding
  | cancel s reason =>
    intro c hc
    cases hc
  | activate hp hc hp' hc' ho =>
    intro c hconfirmation
    rw [hc'] at hconfirmation
    cases hconfirmation
  | freeze hp hc htargets hexpires happroved ho =>
    intro c hconfirmation
    rw [hc] at hconfirmation
    cases hconfirmation
    subst htargets hexpires
    refine ⟨[], rfl, fun ha => ?_, nofun⟩
    rw [happroved] at ha
    cases ha
  | @confirm s s' p c hp hc hlive hp' hc' ho =>
    intro c' hconfirmation
    rw [hc'] at hconfirmation
    cases hconfirmation
    obtain ⟨since, rfl, -, hused⟩ := (hstanding c hc).frozen
    refine ⟨since ++ [.confirmed c.token c.planHash (some p) env.now], rfl, fun _ => ?_, fun d hd i hi => ?_⟩
    · exact ⟨p, c.token, c.planHash, env.now, hp'.trans hp, mem_append_right _ (mem_singleton_self _), hlive⟩
    · rcases mem_append.1 hd with hd | hd
      · exact hused d hd i hi
      · cases mem_singleton.1 hd
  | @expire s s' c hc hp' hc' ho =>
    intro c' hconfirmation
    rw [hc'] at hconfirmation
    cases hconfirmation
    obtain ⟨since, rfl, -, hused⟩ := (hstanding c hc).frozen
    refine ⟨since ++ [.confirmationExpired], rfl, nofun, fun d hd i hi => ?_⟩
    rcases mem_append.1 hd with hd | hd
    · exact hused d hd i hi
    · cases mem_singleton.1 hd
  | observe s => exact fun c hc => (hstanding c hc).executed _ _ _
  | trans h h' ih ih' =>
    rw [foldl_append]
    exact ih' (ih hstanding)

/-! ## The operations -/

/-- The record's request is the one on the table. -/
structure Filed (host : Host) (id : String) (r : Record) (op : Operation) : Prop where
  request : op.request = r.request
  checked : ∃ req, precheck host op.request = .request req ∧ req.operationId = id ∧ op.digest = req.requestDigest

/-- When the record of an operation that ended at `t` goes: its retention later, or the retention after the reservation of the
call whose dispatch ended it. -/
def Expiry (past : List EvaCall) (id : String) (t expires : Nat) : Prop :=
  expires = t + retention ∨ ∃ env args o, .guardedExecute env args o ∈ past ∧ o.ended = true ∧
    (EvaCall.guardedExecute env args o).operation = some id ∧ o.done = t ∧ expires = env.now + retention

/-- An operation on the table and its record: it waits, it has ended and is kept, or it is gone after it expired. -/
inductive Recorded (host : Host) (past : List EvaCall) (id : String) : Option Record → Option Operation → Prop
  | absent : Recorded host past id none none
  | waiting {r : Record} {op : Operation} (hfiled : Filed host id r op) (hended : r.ended = none)
      (hterminal : op.terminal = false) : Recorded host past id (some r) (some op)
  | kept {r : Record} {op : Operation} {t : Nat} (hfiled : Filed host id r op) (hended : r.ended = some (t, op.result))
      (hterminal : op.terminal = true) (hexpires : Expiry past id t op.expires) : Recorded host past id (some r) (some op)
  | gone {r : Record} {t expires reading : Nat} {result : OperationResult} (hended : r.ended = some (t, result))
      (hexpires : Expiry past id t expires) (hreading : reading ∈ readingsOf past) (hpast : expires ≤ reading) :
      Recorded host past id (some r) none

variable {past : List EvaCall} {id : String} {r : Option Record} {operation : Option Operation}

/-- A call that is spaced from the past ones finds the record until the retention from the end is over. -/
theorem Expiry.over {c : EvaCall} {t expires : Nat} (h : Expiry past id t expires) (hspaced : ∀ call ∈ past, call.Spaced c)
    (hid : c.operation = some id) (hpast : expires ≤ c.env.now) : t + retention ≤ c.env.now := by
  rcases h with rfl | ⟨env, args, o, hmem, hended, hcall, rfl, rfl⟩
  · exact hpast
  · have hgap := hspaced _ hmem ⟨hended, by rw [hid]; rfl, hcall.trans hid.symm⟩
    omega

theorem Expiry.mono {t expires : Nat} (h : Expiry past id t expires) {past' : List EvaCall} (hsub : past ⊆ past') :
    Expiry past' id t expires :=
  h.imp_right fun ⟨env, args, o, hmem, h⟩ => ⟨env, args, o, hsub hmem, h⟩

theorem Recorded.mono (h : Recorded host past id r operation) {past' : List EvaCall} (hsub : past ⊆ past') :
    Recorded host past' id r operation := by
  cases h with
  | absent => exact .absent
  | waiting hfiled hended hterminal => exact .waiting hfiled hended hterminal
  | kept hfiled hended hterminal hexpires => exact .kept hfiled hended hterminal (hexpires.mono hsub)
  | gone hended hexpires hreading hpast =>
    obtain ⟨c, hc, ht⟩ := mem_flatMap.1 hreading
    exact .gone hended (hexpires.mono hsub) (mem_flatMap.2 ⟨c, hsub hc, ht⟩) hpast

theorem Recorded.close (h : Recorded host past id r operation) {complete : Operation → Option OperationResult}
    (hcomplete : ∀ op, op.terminal = true → complete op = none) (t : Nat) :
    Recorded host past id
      (match operation.bind complete with
        | some result => r.map (Record.finish t result)
        | none => r)
      (operation.map fun op => op.close t (complete op)) := by
  cases h with
  | absent => exact .absent
  | @waiting r op hfiled hended hterminal =>
    rw [bind_some, map_some]
    cases complete op with
    | none => exact .waiting hfiled hended hterminal
    | some result => exact .kept ⟨hfiled.request, hfiled.checked⟩ rfl rfl (.inl rfl)
  | @kept r op t' hfiled hended hterminal hexpires =>
    rw [bind_some, map_some, hcomplete op hterminal]
    exact .kept hfiled hended hterminal hexpires
  | gone hended hexpires hreading hpast => exact .gone hended hexpires hreading hpast

theorem observed_terminal {op : Operation} (h : op.terminal = true) : observed env op = none := if_pos h

theorem completed_terminal (o : Outcome) {op : Operation} (h : op.terminal = true) : completed o op = none := by
  unfold completed
  rw [h]
  rfl

theorem Recorded.overdue (h : Recorded host past id r operation) :
    Recorded host past id r (operation.map (overdue env)) := by
  cases h with
  | absent => exact .absent
  | @waiting r op hfiled hended hterminal =>
    rw [map_some]
    unfold EvaRuntime.overdue
    split
    · exact .waiting ⟨hfiled.request, hfiled.checked⟩ hended hterminal
    · exact .waiting hfiled hended hterminal
  | @kept r op t hfiled hended hterminal hexpires =>
    have hsame : EvaRuntime.overdue env op = op := by
      unfold EvaRuntime.overdue
      rw [hterminal]
      rfl
    rw [map_some, hsame]
    exact .kept hfiled hended hterminal hexpires
  | gone hended hexpires hreading hpast => exact .gone hended hexpires hreading hpast

theorem Recorded.retain (h : Recorded host past id r operation) (hnow : env.now ∈ readingsOf past) :
    Recorded host past id r (operation.filter fun op => !op.terminal || env.now < op.expires) := by
  cases h with
  | absent => exact .absent
  | @waiting r op hfiled hended hterminal =>
    rw [filter_some_pos (by rw [hterminal]; rfl)]
    exact .waiting hfiled hended hterminal
  | @kept r op t hfiled hended hterminal hexpires =>
    by_cases hlive : env.now < op.expires
    · rw [filter_some_pos (by rw [decide_eq_true hlive, Bool.or_true])]
      exact .kept hfiled hended hterminal hexpires
    · rw [filter_some_neg (by rw [hterminal, decide_eq_false hlive]; decide)]
      exact .gone hended hexpires hnow (Nat.not_lt.1 hlive)
  | gone hended hexpires hreading hpast => exact .gone hended hexpires hreading hpast

theorem Recorded.observe (h : Recorded host past id r (s.operations.get? id)) (hnow : env.now ∈ readingsOf past) :
    Recorded host past id ((s.tickOperations env).2.foldl (recordStep id) r)
      ((s.tickOperations env).1.operations.get? id) := by
  unfold tickOperations
  rw [recordStep_executions, get?_retain, get?_mapValues]
  have hclosed := @Recorded.overdue _ env _ _ _ _ (h.close (fun op => @observed_terminal env op) env.now)
  rw [Option.map_map] at hclosed
  exact hclosed.retain hnow

theorem Move.recorded (h : Move env s events s') (hnow : env.now ∈ readingsOf past) {r : Option Record}
    (hr : Recorded host past id r (s.operations.get? id)) :
    Recorded host past id (events.foldl (recordStep id) r) (s'.operations.get? id) := by
  induction h generalizing r with
  | rest hp hc ho => rwa [ho]
  | cancel s reason =>
    unfold EvaRuntime.cancel
    cases s.permit with
    | none | some p => exact hr
  | activate hp hc hp' hc' ho => rwa [ho]
  | freeze hp hc htargets hexpires happroved ho | confirm hp hc hlive hp' hc' ho | expire hc hp' hc' ho => rwa [ho]
  | observe s => exact hr.observe hnow
  | trans h h' ih ih' =>
    rw [foldl_append]
    exact ih' (ih hr)

/-! ## A dispatch and what it tells -/

theorem Standing.dispatch {f : Option Frozen} {permit : Option AssistantPermit} {c : Confirmation}
    (h : Standing f permit c) (d : Dispatch) : Standing (frozenStep f (.dispatched d)) permit
      (match d.position with
        | some i => { c with used := c.used.set i true }
        | none => c) := by
  obtain ⟨since, rfl, happroved, hused⟩ := h.frozen
  have hconfirmed : c.approved = true → ∃ p token planHash t, permit = some p ∧
      .confirmed token planHash (some p) t ∈ since ++ [.dispatched d] ∧ t < c.expires := by
    intro ha
    obtain ⟨p, token, planHash, t, hp, hmem, hlt⟩ := happroved ha
    exact ⟨p, token, planHash, t, hp, mem_append_left _ hmem, hlt⟩
  cases hposition : d.position with
  | none =>
    refine ⟨since ++ [.dispatched d], rfl, hconfirmed, fun d' hd' i hi => ?_⟩
    rcases mem_append.1 hd' with hd' | hd'
    · exact hused d' hd' i hi
    · cases mem_singleton.1 hd'
      rw [hposition] at hi
      cases hi
  | some index =>
    refine ⟨since ++ [.dispatched d], rfl, hconfirmed, fun d' hd' i hi => ?_⟩
    rw [getElem?_set]
    split
    · split
      · exact nofun
      · exact nofun
    · rename_i hne
      rcases mem_append.1 hd' with hd' | hd'
      · exact hused d' hd' i hi
      · cases mem_singleton.1 hd'
        rw [hposition] at hi
        exact absurd (some.inj hi) hne

theorem ended_answer (o : Outcome) (id : String) : (o.answer id).ended = o.ended := by
  unfold Outcome.answer Outcome.ended
  cases o.result with
  | error e =>
    change ("failed" != "accepted" && "failed" != "unknown") = true
    decide
  | ok result => rfl

variable {args : Json} {req : GuardedRequest} {position : Option Nat} {o : Outcome}

def dispatchEvents (env : EvaEnv) (s : EvaRuntime) (args : Json) (req : GuardedRequest) (position : Option Nat)
    (o : Outcome) : List EvaEvent :=
  .dispatched (dispatchOf env args req position) ::
    ((s.reserve env req args position).settleDispatch req.operationId o).2

theorem dispatch_permit (s : EvaRuntime) :
    ((s.reserve env req args position).settleDispatch req.operationId o).1.permit =
      (dispatchEvents env s args req position o).foldl permitStep s.permit := by
  unfold dispatchEvents settleDispatch
  rw [foldl_cons, foldl_append, foldl_executions_same _ _ _ fun _ _ _ _ => rfl]
  rfl

theorem dispatch_standing {f : Option Frozen} (h : ∀ c, s.confirmation = some c → Standing f s.permit c) :
    ∀ c, ((s.reserve env req args position).settleDispatch req.operationId o).1.confirmation = some c →
      Standing ((dispatchEvents env s args req position o).foldl frozenStep f) s.permit c := by
  intro c hc
  unfold dispatchEvents settleDispatch
  rw [foldl_cons, foldl_append, foldl_cons, foldl_nil]
  refine Standing.event (Standing.executed ?_ _ _ _) (fun _ => rfl) fun d hd => EvaEvent.noConfusion hd
  cases position with
  | none => exact (h c hc).dispatch (dispatchOf env args req none)
  | some index =>
    obtain ⟨c₀, hc₀, rfl⟩ := map_eq_some_iff.1 hc
    exact (h c₀ hc₀).dispatch (dispatchOf env args req (some index))

theorem completed_reserved (o : Outcome) {op : Operation} (h : op.result.status = "in_flight") : completed o op = none := by
  unfold completed
  rw [h, show (("in_flight" : String) == "accepted") = false by decide, Bool.and_false, Bool.false_and]
  rfl

theorem precheck_parse (h : precheck host args = .request req) : GuardedRequest.parse args = some req := by
  unfold precheck at h
  split at h
  · cases h
  · split at h
    · cases h
    · rename_i parsed hparsed
      split at h
      · cases h
      · split at h
        · cases h
        · split at h
          · split at h
            · cases h
            · cases h
              exact hparsed
          · cases h

theorem operation_parsed (h : GuardedRequest.parse args = some req) :
    (EvaCall.guardedExecute env args o).operation = some req.operationId :=
  congrArg (Option.map GuardedRequest.operationId) h

theorem dispatch_recorded (hchecked : precheck host args = .request req) (hpast : .guardedExecute env args o ∈ past)
    {r : Option Record} (hr : Recorded host past id r (s.operations.get? id)) :
    Recorded host past id ((dispatchEvents env s args req position o).foldl (recordStep id) r)
      (((s.reserve env req args position).settleDispatch req.operationId o).1.operations.get? id) := by
  unfold dispatchEvents settleDispatch
  rw [foldl_cons, foldl_append, recordStep_executions, get?_modify, get?_mapValues]
  unfold reserve
  rw [get?_insert]
  by_cases hid : id = req.operationId
  · subst hid
    rw [if_pos rfl, if_pos rfl, bind_some, completed_reserved o rfl, map_some, completed_reserved o rfl]
    rw [foldl_cons, foldl_nil, show recordStep req.operationId r (.dispatched (dispatchOf env args req position)) =
      some { request := args, ended := none } from if_pos rfl]
    have hfiled : ∀ (ended : Option (Nat × OperationResult)) (op : Operation), op.request = args →
        op.digest = req.requestDigest → Filed host req.operationId { request := args, ended } op := by
      intro ended op hrequest hdigest
      refine ⟨hrequest, req, ?_, rfl, hdigest⟩
      rw [hrequest, hchecked]
    cases hended : o.ended with
    | true =>
      have hanswer := (ended_answer o req.operationId).trans hended
      rw [show recordStep req.operationId (some { request := args, ended := none })
        (.returned req.operationId (o.answer req.operationId) o.done) =
          some { request := args, ended := some (o.done, o.answer req.operationId) } from if_pos ⟨rfl, hanswer⟩]
      exact .kept (hfiled _ _ rfl rfl) rfl hanswer
        (.inr ⟨env, args, o, hpast, hended, operation_parsed (precheck_parse hchecked), rfl, rfl⟩)
    | false =>
      have hanswer := (ended_answer o req.operationId).trans hended
      rw [show recordStep req.operationId (some { request := args, ended := none })
        (.returned req.operationId (o.answer req.operationId) o.done) = some { request := args, ended := none } from
          if_neg fun h => by rw [hanswer] at h; cases h.2]
      exact .waiting (hfiled _ _ rfl rfl) rfl hanswer
  · have hid' : ¬ req.operationId = id := fun h => hid h.symm
    rw [if_neg hid, if_neg hid, foldl_cons, foldl_nil,
      show recordStep id r (.dispatched (dispatchOf env args req position)) = r from if_neg hid']
    have hclosed := hr.close (fun op => completed_terminal o) o.done
    generalize (match (s.operations.get? id).bind (completed o) with
      | some result => r.map (Record.finish o.done result)
      | none => r) = r' at hclosed ⊢
    rw [show recordStep id r' (.returned req.operationId (o.answer req.operationId) o.done) = r' from
      if_neg fun h => hid' h.1]
    exact hclosed

/-! ## Runs -/

/-- The state is what the events tell. -/
structure Told (host : Host) (past : List EvaCall) (events : List EvaEvent) (s : EvaRuntime) : Prop where
  permit : s.permit = currentPermit events
  standing : ∀ c, s.confirmation = some c → Standing (lastFrozen events) s.permit c
  recorded : ∀ id, Recorded host past id (recordOf events id) (s.operations.get? id)

theorem told_default (host : Host) : Told host [] [] .default :=
  ⟨rfl, nofun, fun _ => .absent⟩

section

variable {told : List EvaEvent} (h : Told host past told s)
include h

theorem Told.mono {past' : List EvaCall} (hsub : past ⊆ past') : Told host past' told s :=
  ⟨h.permit, h.standing, fun id => (h.recorded id).mono hsub⟩

theorem Told.move (hmove : Move env s events s') (hnow : env.now ∈ readingsOf past) : Told host past (told ++ events) s' := by
  refine ⟨?_, ?_, fun id => ?_⟩
  · rw [hmove.permit, h.permit, currentPermit, currentPermit, foldl_append]
  · rw [lastFrozen, foldl_append]
    exact hmove.standing h.standing
  · rw [recordOf, foldl_append]
    exact hmove.recorded hnow (h.recorded id)

theorem Told.dispatch (hchecked : precheck host args = .request req) (hpast : .guardedExecute env args o ∈ past) :
    Told host past (told ++ dispatchEvents env s args req position o)
      ((s.reserve env req args position).settleDispatch req.operationId o).1 := by
  refine ⟨?_, ?_, fun id => ?_⟩
  · rw [dispatch_permit, h.permit, currentPermit, currentPermit, foldl_append]
  · rw [lastFrozen, foldl_append]
    exact dispatch_standing h.standing
  · rw [recordOf, foldl_append]
    exact dispatch_recorded hchecked hpast (h.recorded id)

end

/-- A call moves the state, or ticks and then dispatches. -/
theorem step_spec (host : Host) (s : EvaRuntime) (c : EvaCall) : Move c.env s (s.step host c).2.1 (s.step host c).1 ∨
      ∃ env args o req position, c = .guardedExecute env args o ∧ Dispatching host env s (s.tick env).1 args req position ∧
        (s.step host c).1 = (((s.tick env).1.reserve env req args position).settleDispatch req.operationId o).1 ∧
        (s.step host c).2.1 = (s.tick env).2 ++ dispatchEvents env (s.tick env).1 args req position o := by
  cases c with
  | control env args => exact .inl (move_control s args)
  | setStatus env args => exact .inl (move_setStatus s args)
  | confirm env reviewable => exact .inl (move_confirm s reviewable)
  | tick env => exact .inl (move_tick s)
  | guardedExecute env args o =>
    rcases @guardedExecute_spec host env s args o with hmove | ⟨req, position, hdispatching, heq⟩
    · exact .inl hmove
    · refine .inr ⟨env, args, o, req, position, rfl, hdispatching, ?_, ?_⟩
      · change (s.guardedExecute host env args o).1 = _
        rw [heq]
      · change (s.guardedExecute host env args o).2.1 = _
        rw [heq]
        rfl

theorem Told.step {told : List EvaEvent} (h : Told host past told s) (c : EvaCall) :
    Told host (past ++ [c]) (told ++ (s.step host c).2.1) (s.step host c).1 := by
  have hlast : c ∈ past ++ [c] := mem_append_right _ (mem_singleton_self c)
  have hnow : c.env.now ∈ readingsOf (past ++ [c]) := mem_flatMap.2 ⟨c, hlast, now_mem_readings c⟩
  have hmono : Told host (past ++ [c]) told s := h.mono fun t => mem_append_left _
  rcases step_spec host s c with hmove | ⟨env, args, o, req, position, rfl, hdispatching, hstate, hevents⟩
  · exact hmono.move hmove hnow
  · rw [hstate, hevents, ← append_assoc]
    exact (hmono.move (move_tick s) hnow).dispatch hdispatching.checked hlast

/-- In every run the state is what its events tell. -/
theorem told_reached (host : Host) (calls : List EvaCall) : Told host calls (eventsOf (trace (EvaRuntime.step host) .default calls))
      (after (EvaRuntime.step host) .default calls) := by
  induction calls using reverseRecOn with
  | nil => exact told_default host
  | append_singleton calls c ih =>
    rw [trace_append, after_append, eventsOf, flatMap_append, trace, trace, flatMap_singleton]
    exact ih.step c

/-! ## The guarantee -/

/-- The position of the confirmation a dispatch uses: its target is the action, approved under its permit in time, and no
dispatch since has used it. -/
structure Confirmed (f : Frozen) (d : Dispatch) (i : Nat) : Prop where
  position : d.position = some i
  target : ∃ actions, f.targets.asArray = some actions ∧ actions[i]? = some d.action.toJson
  approved : ∃ token planHash t, .confirmed token planHash (some d.permit) t ∈ f.since ∧ t < f.expires
  live : d.time < f.expires
  unused : ∀ d', .dispatched d' ∈ f.since → d'.position ≠ some i

/-- A dispatch `d` of the call `c` in the state `s`, where `before` is all that has been made known. -/
structure Authorised (host : Host) (before : List EvaEvent) (s : EvaRuntime) (c : EvaCall) (d : Dispatch) : Prop where
  /-- It is what the call asks for. -/
  request : ∃ env args o req, c = .guardedExecute env args o ∧ precheck host args = .request req ∧
    d = dispatchOf env args req d.position
  /-- Its permit is the current one, the lease has not lapsed and nothing is locked. -/
  permit : currentPermit before = some d.permit
  lease : s.permit = some d.permit ∧ ∃ t, s.leaseUntil = some t ∧ d.time < t
  unlocked : c.env.uiLocked = false ∧ c.env.monitorLocks = false ∧ c.env.compositorLocked = false
  /-- An earlier dispatch of the operation has ended, its retention ago or earlier. -/
  once : ∀ r, recordOf before d.operationId = some r → ∃ t result, r.ended = some (t, result) ∧ t + retention ≤ d.time
  /-- A sensitive action has been confirmed. -/
  confirmed : sensitive host d.action = true → ∃ f i, lastFrozen before = some f ∧ Confirmed f d i

/-- A request for an operation that is on record. -/
structure Repeats (before : List EvaEvent) (env : EvaEnv) (args : Json) (req : GuardedRequest) (r : Record) : Prop where
  parsed : GuardedRequest.parse args = some req
  record : recordOf before req.operationId = some r
  retained : ∀ t result, r.ended = some (t, result) → env.now < t + retention

def EvaAnswer.refused : EvaAnswer → Bool
  | .response (.err _) => true
  | .response .crash => true
  | _ => false

/-- What a call of a run keeps to, where `before` has been made known. -/
structure Guarded (host : Host) (before : List EvaEvent) (s : EvaRuntime) (c : EvaCall) : Prop where
  authorised : ∀ ticked d rest, (s.step host c).2.1 = ticked ++ .dispatched d :: rest →
    Authorised host (before ++ ticked) s c d
  /-- The same request is answered with the result on record. -/
  same : ∀ env args o req r, c = .guardedExecute env args o → Repeats before env args req r → args = r.request →
    ∃ op, s.operations.get? req.operationId = some op ∧ s.step host c = (s, [], .response (.ok (some op.result))) ∧
      ∀ t result, r.ended = some (t, result) → op.result = result
  /-- One that differs is refused. -/
  other : ∀ env args o req r, c = .guardedExecute env args o → Repeats before env args req r → args ≠ r.request →
    (s.step host c).1 = s ∧ (s.step host c).2.1 = [] ∧ (s.step host c).2.2.refused = true

/-- The one place in a list where `P` holds. -/
theorem split_unique {α : Type} {P : α → Prop} {a b a' b' : List α} {x x' : α} (h : a ++ x :: b = a' ++ x' :: b')
    (hx : P x) (ha' : ∀ y ∈ a', ¬ P y) (hb' : ∀ y ∈ b', ¬ P y) : a = a' ∧ x = x' ∧ b = b' := by
  rcases append_eq_append_iff.1 h with ⟨l, rfl, hl⟩ | ⟨l, rfl, hl⟩
  · cases l with
    | nil =>
      cases hl
      exact ⟨(append_nil a).symm, rfl, rfl⟩
    | cons y l =>
      cases hl
      exact absurd hx (ha' x (mem_append_right _ mem_cons_self))
  · cases l with
    | nil =>
      cases hl
      exact ⟨append_nil a', rfl, rfl⟩
    | cons y l =>
      cases hl
      exact absurd hx (hb' x (mem_append_right _ mem_cons_self))

def EvaEvent.isDispatched : EvaEvent → Bool
  | .dispatched _ => true
  | _ => false

theorem Move.quiet (h : Move env s events s') : ∀ e ∈ events, ¬ e.isDispatched = true := by
  intro e he
  cases e with
  | dispatched d => exact absurd he (h.not_dispatched d)
  | _ => exact nofun

theorem settle_quiet (s : EvaRuntime) (id : String) (o : Outcome) :
    ∀ e ∈ (s.settleDispatch id o).2, ¬ e.isDispatched = true := by
  intro e he
  rcases mem_append.1 he with he | he
  · obtain ⟨id', result, rfl⟩ := mem_executions he
    exact nofun
  · cases mem_singleton.1 he
    exact nofun

section

variable {told : List EvaEvent} (h : Told host past told s) (hreadings : ∀ t ∈ readingsOf past, t ≤ env.now)
  (hspaced : ∀ call ∈ past, call.Spaced (.guardedExecute env args o))
include h hreadings hspaced

theorem Told.authorised (hdispatching : Dispatching host env s (s.tick env).1 args req position) :
    Authorised host (told ++ (s.tick env).2) s (.guardedExecute env args o) (dispatchOf env args req position) := by
  obtain ⟨hmove, hkept, hopen⟩ := @tick_spec env s
  have hticked : Told host (past ++ [.tick env]) (told ++ (s.tick env).2) (s.tick env).1 := h.step (.tick env)
  have hle : ∀ t ∈ readingsOf (past ++ [.tick env]), t ≤ env.now := by
    intro t ht
    rw [readingsOf, flatMap_append, flatMap_singleton] at ht
    rcases mem_append.1 ht with ht | ht
    · exact hreadings t ht
    · exact Nat.le_of_eq (mem_singleton.1 ht)
  have hspaced' : ∀ call ∈ past ++ [.tick env], call.Spaced (.guardedExecute env args o) := by
    intro call hcall
    rcases mem_append.1 hcall with hcall | hcall
    · exact hspaced call hcall
    · rw [mem_singleton.1 hcall]
      trivial
  have hpermit := hdispatching.permit
  have hactive := hdispatching.active
  unfold active at hactive
  simp only [Bool.and_eq_true, Bool.not_eq_true'] at hactive
  obtain ⟨⟨⟨⟨-, hlease⟩, hui⟩, hmonitors⟩, -⟩ := hactive
  refine ⟨⟨env, args, o, req, rfl, hdispatching.checked, rfl⟩, hticked.permit.symm.trans hpermit, ?_, ?_, ?_, ?_⟩
  · rcases hkept with hgone | ⟨hsame, hleaseSame⟩
    · rw [hpermit] at hgone
      cases hgone
    · rw [hleaseSame] at hlease
      obtain ⟨t, ht, hlt⟩ := (any_eq_true _ _).1 hlease
      exact ⟨hsame.symm.trans hpermit, t, ht, of_decide_eq_true hlt⟩
  · rcases hopen with hgone | hopen
    · rw [hpermit] at hgone
      cases hgone
    · exact ⟨hui, hmonitors, hopen⟩
  · intro r hr
    have hrecorded := hticked.recorded req.operationId
    rw [show recordOf (told ++ (s.tick env).2) req.operationId = some r from hr, hmove.fresh hdispatching.fresh] at hrecorded
    cases hrecorded with
    | gone hended hexpires hreading hpast =>
      have hover := hexpires.over hspaced' (operation_parsed (precheck_parse hdispatching.checked))
      exact ⟨_, _, hended, hover (Nat.le_trans hpast (hle _ hreading))⟩
  · intro hsensitive
    obtain ⟨hsome, hposition⟩ := checkAction_ok hdispatching.action
    obtain ⟨i, hi⟩ := isSome_iff_exists.1 (hsome hsensitive)
    obtain ⟨c, hc, hholds⟩ := hposition i hi
    obtain ⟨since, hfrozen, happroved, hused⟩ := (hticked.standing c hc).frozen
    obtain ⟨p, token, planHash, t, hp, hmem, hlt⟩ := happroved hholds.approved
    have hsame : p = req.assistantPermit := some.inj (hp.symm.trans hpermit)
    rw [hsame] at hmem
    refine ⟨_, i, hfrozen, hi, hholds.target, ⟨token, planHash, t, hmem, hlt⟩, hholds.live, ?_⟩
    exact fun d' hd' hi' => hused d' hd' i hi' hholds.free

section

variable {r : Record} (hrepeats : Repeats told env args req r)
include hrepeats

theorem Told.known : ∃ op, s.operations.get? req.operationId = some op ∧ Filed host req.operationId r op ∧
      ∀ t result, r.ended = some (t, result) → op.result = result := by
  have hrecorded := h.recorded req.operationId
  rw [hrepeats.record] at hrecorded
  generalize hop : s.operations.get? req.operationId = operation at hrecorded
  cases hrecorded with
  | @waiting _ op hfiled hended hterminal =>
    refine ⟨op, rfl, hfiled, fun t result hresult => ?_⟩
    rw [hended] at hresult
    cases hresult
  | @kept _ op t hfiled hended hterminal hexpires =>
    refine ⟨op, rfl, hfiled, fun t result hresult => ?_⟩
    rw [hended] at hresult
    cases hresult
    rfl
  | @gone _ t expires reading result hended hexpires hreading hpast =>
    have hlive := hrepeats.retained t result hended
    have hover := hexpires.over hspaced (operation_parsed hrepeats.parsed) (Nat.le_trans hpast (hreadings reading hreading))
    exact absurd hlive (Nat.not_lt.2 hover)

theorem Told.same (hargs : args = r.request) : ∃ op, s.operations.get? req.operationId = some op ∧
      s.step host (.guardedExecute env args o) = (s, [], .response (.ok (some op.result))) ∧
      ∀ t result, r.ended = some (t, result) → op.result = result := by
  obtain ⟨op, hop, hfiled, hresult⟩ := h.known hreadings hspaced hrepeats
  obtain ⟨req', hchecked, -, hdigest⟩ := hfiled.checked
  rw [hfiled.request, ← hargs] at hchecked
  have hreq : req' = req := some.inj ((precheck_parse hchecked).symm.trans hrepeats.parsed)
  subst hreq
  refine ⟨op, hop, ?_, hresult⟩
  unfold EvaRuntime.step
  dsimp only
  rw [guardedExecute_known hchecked hop, if_pos ⟨hdigest, hfiled.request.trans hargs.symm⟩]

theorem Told.other (hargs : args ≠ r.request) :
    (s.step host (.guardedExecute env args o)).1 = s ∧ (s.step host (.guardedExecute env args o)).2.1 = [] ∧
      (s.step host (.guardedExecute env args o)).2.2.refused = true := by
  obtain ⟨op, hop, hfiled, -⟩ := h.known hreadings hspaced hrepeats
  unfold EvaRuntime.step
  dsimp only
  cases hpre : precheck host args with
  | refused code | crash =>
    unfold guardedExecute
    rw [hpre]
    exact ⟨rfl, rfl, rfl⟩
  | request req' =>
    have hreq : req' = req := some.inj ((precheck_parse hpre).symm.trans hrepeats.parsed)
    subst hreq
    rw [guardedExecute_known hpre hop, if_neg fun hsame => hargs (hsame.2.symm.trans hfiled.request)]
    exact ⟨rfl, rfl, rfl⟩

end

end

theorem Told.guarded {told : List EvaEvent} (h : Told host past told s) {c : EvaCall}
    (hreadings : ∀ t ∈ readingsOf past, t ≤ c.env.now) (hspaced : ∀ call ∈ past, call.Spaced c) : Guarded host told s c := by
  refine ⟨fun ticked d rest hevents => ?_, ?_, ?_⟩
  · rcases step_spec host s c with hmove | ⟨env, args, o, req, position, rfl, hdispatching, -, htold⟩
    · rw [hevents] at hmove
      exact absurd (mem_append_right ticked mem_cons_self) (hmove.not_dispatched d)
    · rw [htold] at hevents
      obtain ⟨hsplit, hd, -⟩ := split_unique (P := fun e => e.isDispatched = true) hevents.symm rfl
        (@move_tick env s).quiet (settle_quiet _ _ o)
      cases hd
      rw [hsplit]
      exact h.authorised hreadings hspaced hdispatching
  · rintro env args o req r rfl hrepeats hargs
    exact h.same hreadings hspaced hrepeats hargs
  · rintro env args o req r rfl hrepeats hargs
    exact h.other hreadings hspaced hrepeats hargs

/-- Guarded execution is authorised, and at most once while an operation is retained, in every run and for every call that is
spaced from those before it. -/
theorem guarded_execution (host : Host) (calls : List EvaCall) (c : EvaCall)
    (htimes : (readingsOf (calls ++ [c])).Pairwise (· ≤ ·)) (hspaced : ∀ call ∈ calls, call.Spaced c) :
    Guarded host (eventsOf (trace (EvaRuntime.step host) .default calls))
      (after (EvaRuntime.step host) .default calls) c := by
  refine (told_reached host calls).guarded (fun t ht => ?_) hspaced
  rw [readingsOf, flatMap_append, pairwise_append] at htimes
  refine htimes.2.2 t ht c.env.now ?_
  rw [flatMap_singleton]
  exact now_mem_readings c

/-! ## A confirmed close, and a slow failure -/

def Sample.wm : Host :=
  { wmInstance := "wm", sessionId := "s", digest := fun _ => "d", bytes := fun _ => 1
    riskClass := fun name => if name = "killclient" then some "confirmation" else none
    validateExecutionAction := fun _ => .ok () }

def Sample.session (now : Nat) : EvaEnv :=
  { now, monotonicNs := now, running := true, uiLocked := false, monitorLocks := false, compositorLocked := false
    supportsOverlay := true, presentable := fun _ => some 0, selMon := some 0, hasMonitor := fun _ => true
    resolveMonitor := fun _ => some 0, monitorLocked := fun _ => false, activeTags := fun _ => 1, focusToken := none
    monitorHistory := [], monitorTokens := [], loadRestore := .error "", restoreMatching := fun _ => []
    checkUndoState := fun _ => .ok (), receipt := fun _ => .pending }

def Sample.permit (generation : Nat) : Json :=
  .object [("assistant_session_id", .string ("wm-" ++ toString generation)), ("generation", .number (.pos generation))]

def Sample.activate (now : Nat) : EvaCall := .control (Sample.session now) (.object [("action", .string "activate")])

def Sample.action (name : String) : Action :=
  { name, arguments := .object [("expected_state", .object [])] }

/-- The request for an operation, under the permit of an activation. -/
def Sample.request (generation : Nat) (name : String) (token : Json) : Json :=
  .object [("action", (Sample.action name).toJson), ("assistant_permit", Sample.permit generation),
    ("confirmation_token", token), ("expected_context", .object [("session_unlocked", .bool true)]),
    ("operation_id", .string "o"), ("protocol_version", .number (.pos 1)), ("request_digest", .string "d"),
    ("wm_instance_id", .string "wm")]

def Sample.dispatch (generation : Nat) (name : String) (token : Json) (position : Option Nat) (time : Nat) : Dispatch :=
  { operationId := "o", request := Sample.request generation name token
    permit := { assistantSessionId := "wm-" ++ toString generation, generation }, action := Sample.action name, position
    time }

def Sample.failure (done : Nat) : Outcome := { result := .error "gone", receipt := false, completes := [], done }

def Sample.confirmed : List EvaCall :=
  [Sample.activate 0, .setStatus (Sample.session 1) (.object [("assistant_permit", Sample.permit 1),
      ("confirmation", .object [("plan_hash", .string "h"), ("targets", .array [(Sample.action "killclient").toJson])]),
      ("state", .string "confirming")]),
    .confirm (Sample.session 2) true]

def Sample.close : EvaCall :=
  .guardedExecute (Sample.session 3) (Sample.request 1 "killclient" (.string "confirm-1-1-s")) (Sample.failure 3)

theorem guarded_execution_close :
    (∃ d, .dispatched d ∈ ((after (EvaRuntime.step Sample.wm) .default Sample.confirmed).step Sample.wm Sample.close).2.1 ∧
        sensitive Sample.wm d.action = true) ∧
      Guarded Sample.wm (eventsOf (trace (EvaRuntime.step Sample.wm) .default Sample.confirmed))
        (after (EvaRuntime.step Sample.wm) .default Sample.confirmed) Sample.close :=
  ⟨⟨Sample.dispatch 1 "killclient" (.string "confirm-1-1-s") (some 0) 3, by decide +kernel, by decide +kernel⟩,
    guarded_execution _ _ _ (by decide +kernel) (by decide +kernel)⟩

/-- A dispatch at one second fails at eleven; its record goes at 601. -/
def Sample.slow : List EvaCall :=
  [Sample.activate (10 ^ 9),
    .guardedExecute (Sample.session (10 ^ 9)) (Sample.request 1 "reload" .null) (Sample.failure (11 * 10 ^ 9)),
    Sample.activate (601 * 10 ^ 9), .tick (Sample.session (601 * 10 ^ 9))]

def Sample.again : EvaCall :=
  .guardedExecute (Sample.session (601 * 10 ^ 9)) (Sample.request 2 "reload" .null) (Sample.failure (601 * 10 ^ 9))

/-- It is dispatched again 590 seconds after it ended. -/
theorem slow_failure_dispatched_again :
    (readingsOf (Sample.slow ++ [Sample.again])).Pairwise (· ≤ ·) ∧
      ¬ Guarded Sample.wm (eventsOf (trace (EvaRuntime.step Sample.wm) .default Sample.slow))
        (after (EvaRuntime.step Sample.wm) .default Sample.slow) Sample.again := by
  refine ⟨by decide +kernel, fun h => ?_⟩
  obtain ⟨t, result, hended, hle⟩ := (h.authorised [] (Sample.dispatch 2 "reload" .null none (601 * 10 ^ 9))
    [.returned "o" ((Sample.failure 0).answer "o") (601 * 10 ^ 9)] (by decide +kernel)).once
      { request := Sample.request 1 "reload" .null, ended := some (11 * 10 ^ 9, (Sample.failure 0).answer "o") }
      (by decide +kernel)
  cases hended
  exact absurd hle (by decide)

end Jwm.Authority
