/-
Every notification is closed exactly once, and restarts change nothing: what has been closed and what is held are together
what has been issued.
-/
import Jwm.Features.NotificationFile

namespace Jwm.Features

open NotificationCenter
open List

/-- A call, with what it shows and broadcasts and its answer. -/
abbrev NotificationEntry := NotificationCall × List NotificationEffect × NotificationAnswer

/-! ## One call -/

def NotificationAnswer.id : NotificationAnswer → Option UInt32
  | .posted id => id
  | _ => none

/-- What a call does: it answers an identifier in the history, issues it where it was not in it, and closes what leaves
the history. -/
structure Served (c c' : NotificationCenter) (effects : List NotificationEffect) (answer : NotificationAnswer) : Prop where
  flow : ∃ issued, Flow c c' effects issued ∧
    (issued = [] ∧ (∀ id ∈ answer.id, id ∈ c.ids) ∨ ∃ id, issued = [id] ∧ answer.id = some id)

variable {codec : HistoryCodec} {c : NotificationCenter}

theorem served_step (hcodec : codec.Lawful) (h : Tidy c) (hroom : c.nextId.toNat + 1 < 2 ^ 32) (call : NotificationCall) :
    Served c (notificationStep codec c call).1 (notificationStep codec c call).2.1 (notificationStep codec c call).2.2 := by
  cases call with
  | post request timeoutMs now quiet =>
    rcases flow_post h hroom request timeoutMs now quiet with ⟨hmem, hid, -, hflow⟩ | ⟨-, hid, -, hflow⟩
    · refine ⟨[], hflow, .inl ⟨rfl, fun id hanswer => ?_⟩⟩
      change (postNotification c request timeoutMs now quiet).2.2 = some id at hanswer
      rw [hid] at hanswer
      cases hanswer
      exact hmem
    · exact ⟨_, hflow, .inr ⟨_, rfl, hid⟩⟩
  | close id reason => exact ⟨[], (flow_close h id reason).1, .inl ⟨rfl, nofun⟩⟩
  | clear => exact ⟨[], flow_clear h, .inl ⟨rfl, nofun⟩⟩
  | invoke id action => exact ⟨[], (flow_invoke h id action).1, .inl ⟨rfl, nofun⟩⟩
  | restart =>
    refine ⟨[], ?_, .inl ⟨rfl, ?_⟩⟩
    · simp only [notificationStep, parseHistory_serializeHistory hcodec h]
      exact Flow.same h rfl
    · simp only [notificationStep, parseHistory_serializeHistory hcodec h]
      exact nofun

theorem step_restart (hcodec : codec.Lawful) (h : Tidy c) :
    notificationStep codec c .restart = (c, [], .restarted true) := by
  simp only [notificationStep, parseHistory_serializeHistory hcodec h]

/-! ## A run -/

section

variable (history : List NotificationEntry)
include history

/-- The identifiers answered so far, in the order they were first answered. -/
def issuedIds : List UInt32 :=
  history.foldl (fun issued e => match e.2.2.id with
    | some id => if id ∈ issued then issued else issued ++ [id]
    | none => issued) []

def allClosed : List UInt32 := history.flatMap fun e => closedIds e.2.1

theorem issuedIds_append (e : NotificationEntry) :
    issuedIds (history ++ [e]) = match e.2.2.id with
      | some id => if id ∈ issuedIds history then issuedIds history else issuedIds history ++ [id]
      | none => issuedIds history := by
  unfold issuedIds
  rw [foldl_append]
  rfl

theorem allClosed_append (e : NotificationEntry) :
    allClosed (history ++ [e]) = allClosed history ++ closedIds e.2.1 := by
  unfold allClosed
  rw [flatMap_append, flatMap_cons, flatMap_nil, append_nil]

/-- Between calls: what has been issued is held or has been closed. -/
structure Accounted (c : NotificationCenter) : Prop where
  tidy : Tidy c
  counter : c.nextId.toNat ≤ history.length
  perm : (allClosed history ++ c.ids).Perm (issuedIds history)
  nodup : (issuedIds history).Nodup
  le : ∀ id ∈ issuedIds history, id ≤ c.nextId
  order : c.ids.Sublist (issuedIds history)

end

theorem accounted_default : Accounted [] .default :=
  ⟨tidy_default, Nat.le_refl _, List.Perm.refl _, nodup_nil, nofun, List.Sublist.refl _⟩

variable {history : List NotificationEntry} {id : UInt32} {c' : NotificationCenter} {call : NotificationCall}
    {effects : List NotificationEffect}

theorem Accounted.ids (h : Accounted history c) (hid : id ∈ c.ids) : id ∈ issuedIds history := h.order.subset hid

theorem Accounted.serve (h : Accounted history c) {answer : NotificationAnswer}
    (hserved : Served c c' effects answer) : Accounted (history ++ [(call, effects, answer)]) c' := by
  obtain ⟨issued, hflow, hissued⟩ := hserved.flow
  have hids : issuedIds (history ++ [(call, effects, answer)]) = issuedIds history ++ issued := by
    rw [issuedIds_append]
    rcases hissued with ⟨rfl, hlive⟩ | ⟨id, rfl, hid⟩
    · rw [append_nil]
      cases hanswer : answer.id with
      | none => rfl
      | some id => exact if_pos (h.ids (hlive id hanswer))
    · rw [hid]
      refine if_neg fun hmem => ?_
      rcases hflow.next with ⟨hnil, -⟩ | ⟨hnext, hcount⟩
      · cases hnil
      · cases hnext
        have hle := UInt32.le_iff_toNat_le.1 (h.le _ hmem)
        omega
  have hfresh : ∀ id ∈ issued, id ∉ issuedIds history := by
    intro id hid hmem
    rcases hflow.next with ⟨rfl, -⟩ | ⟨rfl, hcount⟩
    · cases hid
    · rw [mem_singleton.1 hid] at hmem
      have hle := UInt32.le_iff_toNat_le.1 (h.le _ hmem)
      omega
  have hnext : c.nextId ≤ c'.nextId ∧ c'.nextId.toNat ≤ c.nextId.toNat + 1 := by
    rcases hflow.next with ⟨-, hsame⟩ | ⟨-, hcount⟩
    · rw [hsame]
      exact ⟨UInt32.le_refl _, Nat.le_succ _⟩
    · exact ⟨UInt32.le_iff_toNat_le.2 (by omega), by omega⟩
  refine ⟨hflow.tidy, ?_, ?_, ?_, ?_, ?_⟩
  · rw [length_append, length_singleton]
    have hcounter := h.counter
    omega
  · rw [allClosed_append, hids, append_assoc]
    refine (hflow.perm.append_left _).trans ?_
    rw [← append_assoc]
    exact h.perm.append_right _
  · rw [hids, nodup_append]
    refine ⟨h.nodup, ?_, fun a ha b hb hab => hfresh b hb (hab ▸ ha)⟩
    rcases hflow.next with ⟨rfl, -⟩ | ⟨rfl, -⟩
    · exact nodup_nil
    · exact nodup_singleton _
  · intro id hid
    rw [hids] at hid
    rcases mem_append.1 hid with hid | hid
    · exact UInt32.le_trans (h.le id hid) hnext.1
    · rcases hflow.next with ⟨rfl, -⟩ | ⟨rfl, -⟩
      · cases hid
      · rw [mem_singleton.1 hid]
        exact UInt32.le_refl _
  · rw [hids]
    exact hflow.sublist.trans (h.order.append_right _)

theorem accounted_reached (hcodec : codec.Lawful) (calls : List NotificationCall) (hcalls : calls.length < 2 ^ 32 - 1) :
    Accounted (trace (notificationStep codec) .default calls) (after (notificationStep codec) .default calls) := by
  have hrun : (trace (notificationStep codec) .default calls).length < 2 ^ 32 - 1 →
      Accounted (trace (notificationStep codec) .default calls) (after (notificationStep codec) .default calls) := by
    refine @trace_invariant _ _ _ (notificationStep codec) (fun history c => history.length < 2 ^ 32 - 1 → Accounted history c)
      (fun history c call h hlength => ?_) _ (fun _ => accounted_default) calls
    rw [length_append, length_singleton] at hlength
    have haccounted := h (by omega)
    have hcounter := haccounted.counter
    exact haccounted.serve (served_step hcodec haccounted.tidy (by omega) call)
  refine hrun ?_
  have hlength := congrArg length (@map_fst_trace _ _ _ (notificationStep codec) .default calls)
  rw [length_map] at hlength
  omega

/-! ## Restarts -/

def NotificationCall.isRestart : NotificationCall → Bool
  | .restart => true
  | _ => false

theorem next_step (hcodec : codec.Lawful) (h : Tidy c) (hroom : c.nextId.toNat + 1 < 2 ^ 32) (call : NotificationCall) :
    Tidy (notificationStep codec c call).1 ∧ (notificationStep codec c call).1.nextId.toNat ≤ c.nextId.toNat + 1 := by
  obtain ⟨issued, hflow, -⟩ := (served_step hcodec h hroom call).flow
  refine ⟨hflow.tidy, ?_⟩
  rcases hflow.next with ⟨-, hsame⟩ | ⟨-, hcount⟩
  · rw [hsame]
    exact Nat.le_succ _
  · exact Nat.le_of_eq hcount

theorem run_without_restarts (hcodec : codec.Lawful) : ∀ (calls : List NotificationCall) (c : NotificationCenter),
    Tidy c → c.nextId.toNat + calls.length < 2 ^ 32 →
    after (notificationStep codec) c calls = after (notificationStep codec) c (calls.filter fun call => !call.isRestart) ∧
      (trace (notificationStep codec) c calls).filter (fun e => !e.1.isRestart) =
        trace (notificationStep codec) c (calls.filter fun call => !call.isRestart)
  | [], _, _, _ => ⟨rfl, rfl⟩
  | call :: calls, c, h, hroom => by
    rw [length_cons] at hroom
    obtain ⟨htidy, hnext⟩ := next_step hcodec h (by omega) call
    cases hrestart : call.isRestart with
    | true =>
      obtain rfl : call = .restart := by
        cases call with
        | restart => rfl
        | _ => cases hrestart
      obtain ⟨hafter, htrace⟩ := run_without_restarts hcodec calls c h (by omega)
      have hdrop : (NotificationCall.restart :: calls).filter (fun call => !call.isRestart) =
          calls.filter fun call => !call.isRestart := rfl
      rw [hdrop, after, trace, step_restart hcodec h]
      exact ⟨hafter, htrace⟩
    | false =>
      have hkeep : (call :: calls).filter (fun call => !call.isRestart) =
          call :: calls.filter fun call => !call.isRestart := by
        rw [filter_cons, hrestart]
        rfl
      obtain ⟨hafter, htrace⟩ := run_without_restarts hcodec calls _ htidy (by omega)
      rw [hkeep, after, after, trace, trace, filter_cons, htrace]
      rw [hrestart]
      exact ⟨hafter, rfl⟩

/-! ## The guarantee -/

theorem acted_only_offered (hcodec : codec.Lawful) (h : Tidy c) {key : String}
    (hacted : .action id key ∈ (notificationStep codec c call).2.1) :
    call = .invoke id key ∧ (∃ r ∈ c.records, r.id = id ∧ ∃ a ∈ r.actions, a.key = key) ∧
      (notificationStep codec c call).2.1 = [.action id key, .closed id .dismissed] := by
  cases call with
  | post request timeoutMs now quiet =>
    exfalso
    change _ ∈ (postNotification c request timeoutMs now quiet).2.1 at hacted
    unfold postNotification at hacted
    split at hacted
    · cases hacted
    · cases quiet <;> simp at hacted
  | close id' reason =>
    exfalso
    change _ ∈ (closeNotification c id' reason).2.1 at hacted
    unfold closeNotification at hacted
    split at hacted <;> simp at hacted
  | clear =>
    exfalso
    change _ ∈ (c.ids.reverse.map _) at hacted
    simp at hacted
  | invoke id' action =>
    change _ ∈ (invokeNotificationAction c id' action).2.1 at hacted
    show _ ∧ _ ∧ (invokeNotificationAction c id' action).2.1 = _
    rcases (flow_invoke h id' action).2 with hnone | ⟨hoffered, heffects⟩
    · rw [hnone] at hacted
      cases hacted
    · rw [heffects] at hacted ⊢
      obtain ⟨rfl, rfl⟩ : id = id' ∧ key = action := by simpa using hacted
      exact ⟨rfl, hoffered, rfl⟩
  | restart =>
    rw [step_restart hcodec h] at hacted
    cases hacted

theorem count_nodup {ids : List UInt32} (h : ids.Nodup) (id : UInt32) : ids.count id = if id ∈ ids then 1 else 0 := by
  split
  · rename_i hmem
    exact count_eq_one_of_mem h hmem
  · rename_i hmem
    exact count_eq_zero.2 hmem

theorem Flow.closes {issued : List UInt32} (h : Tidy c) (hflow : Flow c c' effects issued) (id : UInt32) :
    (closedIds effects).count id = if id ∈ c.ids ∧ id ∉ c'.ids then 1 else 0 := by
  have hcount := hflow.perm.count_eq id
  rw [count_append, count_append, count_nodup h.nodup, count_nodup hflow.tidy.nodup] at hcount
  by_cases hissued : id ∈ issued
  · have hlive := hflow.live id hissued
    have hone : issued.count id ≤ 1 := by
      rcases hflow.next with ⟨rfl, -⟩ | ⟨rfl, -⟩
      · exact Nat.zero_le _
      · exact count_le_length
    have hnot : id ∉ c.ids := by
      intro hmem
      have hle := UInt32.le_iff_toNat_le.1 (h.le id hmem)
      rcases hflow.next with ⟨rfl, -⟩ | ⟨rfl, hnext⟩
      · cases hissued
      · rw [mem_singleton.1 hissued] at hle
        omega
    rw [if_pos hlive, if_neg hnot] at hcount
    rw [if_neg fun hboth => hboth.2 hlive]
    omega
  · rw [count_eq_zero.2 hissued] at hcount
    by_cases hlive : id ∈ c.ids
    · by_cases hlive' : id ∈ c'.ids
      · rw [if_pos hlive, if_pos hlive'] at hcount
        rw [if_neg fun hboth => hboth.2 hlive']
        omega
      · rw [if_pos hlive, if_neg hlive'] at hcount
        rw [if_pos ⟨hlive, hlive'⟩]
        omega
    · rw [if_neg hlive] at hcount
      rw [if_neg fun hboth => hlive hboth.1]
      omega

/-- What holds of the call `call` after `calls`. -/
structure ClosedOnce (codec : HistoryCodec) (calls : List NotificationCall) (call : NotificationCall)
    (c c' : NotificationCenter) (effects : List NotificationEffect) (answer : NotificationAnswer) : Prop where
  ids : c'.ids.Nodup ∧ ∀ id ∈ c'.ids, id ≠ 0
  few : c'.records.length ≤ maxHistory
  /-- The history is in the order of posting. -/
  order : c'.ids.Sublist (issuedIds (trace (notificationStep codec) .default (calls ++ [call])))
  /-- A post replaces a live record in its place, or answers an identifier never answered before. -/
  posts : ∀ request timeoutMs now quiet, call = .post request timeoutMs now quiet →
    (request.replacesId ∈ c.ids → answer = .posted (some request.replacesId) ∧ c'.records = c.records.map fun r =>
      if r.id = request.replacesId then request.record r.id now quiet else r) ∧
    (request.replacesId ∉ c.ids → ∃ id, answer = .posted (some id) ∧ id ∈ c'.ids ∧
      id ∉ issuedIds (trace (notificationStep codec) .default calls))
  /-- A call closes exactly what it makes leave the history. -/
  closes : ∀ id, (closedIds effects).count id = if id ∈ c.ids ∧ id ∉ c'.ids then 1 else 0
  /-- Every identifier ever answered has been closed once, or not yet and it is live. -/
  once : ∀ id ∈ issuedIds (trace (notificationStep codec) .default (calls ++ [call])),
    (allClosed (trace (notificationStep codec) .default (calls ++ [call]))).count id = if id ∈ c'.ids then 0 else 1
  acts : ∀ id key, .action id key ∈ effects → call = .invoke id key ∧
    (∃ r ∈ c.records, r.id = id ∧ ∃ a ∈ r.actions, a.key = key) ∧ effects = [.action id key, .closed id .dismissed]
  size : (serializeHistory codec c'.records c'.nextId).utf8ByteSize ≤ maxHistoryBytes
  /-- A restart changes nothing, and the run so far goes the same without its restarts. -/
  restarts : (call = .restart → c' = c ∧ effects = [] ∧ answer = .restarted true) ∧
    c' = after (notificationStep codec) .default ((calls ++ [call]).filter fun call => !call.isRestart) ∧
    (trace (notificationStep codec) .default (calls ++ [call])).filter (fun e => !e.1.isRestart) =
      trace (notificationStep codec) .default ((calls ++ [call]).filter fun call => !call.isRestart)

/-- Every notification is closed exactly once, and the history survives restarts. -/
theorem notifications_closed_once (codec : HistoryCodec) (hcodec : codec.Lawful) (calls : List NotificationCall)
    (call : NotificationCall) (hcalls : (calls ++ [call]).length < 2 ^ 32 - 1) :
    ClosedOnce codec calls call (after (notificationStep codec) .default calls)
      (notificationStep codec (after (notificationStep codec) .default calls) call).1
      (notificationStep codec (after (notificationStep codec) .default calls) call).2.1
      (notificationStep codec (after (notificationStep codec) .default calls) call).2.2 := by
  have hlength : calls.length < 2 ^ 32 - 1 := by
    rw [length_append, length_singleton] at hcalls
    omega
  have hbefore := accounted_reached hcodec calls hlength
  have hafter := accounted_reached hcodec (calls ++ [call]) hcalls
  have hstate : after (notificationStep codec) .default (calls ++ [call]) =
      (notificationStep codec (after (notificationStep codec) .default calls) call).1 := after_append _ _ _
  have hroom : (after (notificationStep codec) .default calls).nextId.toNat + 1 < 2 ^ 32 := by
    have hcounter := hbefore.counter
    have hsame := congrArg length (@map_fst_trace _ _ _ (notificationStep codec) .default calls)
    rw [length_map] at hsame
    omega
  have hwithout := run_without_restarts hcodec (calls ++ [call]) .default tidy_default (by
    show 0 + _ < _
    omega)
  rw [hstate] at hafter hwithout
  generalize after (notificationStep codec) .default calls = c at *
  obtain ⟨issued, hflow, -⟩ := (served_step hcodec hbefore.tidy hroom call).flow
  refine ⟨⟨hafter.tidy.nodup, hafter.tidy.ne_zero⟩, hafter.tidy.length, hafter.order, ?_, hflow.closes hbefore.tidy, ?_,
    fun id key => acted_only_offered hcodec hbefore.tidy, serializeHistory_size hcodec hafter.tidy, ?_, hwithout⟩
  · rintro request timeoutMs now quiet rfl
    rcases flow_post hbefore.tidy hroom request timeoutMs now quiet with
      ⟨hmem, hid, hrecords, -⟩ | ⟨hmem, hid, -, hposted⟩
    · exact ⟨fun _ => ⟨congrArg NotificationAnswer.posted hid, hrecords⟩, fun hnot => absurd hmem hnot⟩
    · refine ⟨fun hlive => absurd hlive hmem, fun _ => ⟨c.nextId + 1, congrArg NotificationAnswer.posted hid, ?_, ?_⟩⟩
      · exact hposted.live _ (mem_singleton_self _)
      · intro hissued
        have hle := UInt32.le_iff_toNat_le.1 (hbefore.le _ hissued)
        rw [toNat_next hroom] at hle
        omega
  · intro id hid
    have hcount := hafter.perm.count_eq id
    rw [count_append, count_nodup hafter.tidy.nodup, count_nodup hafter.nodup, if_pos hid] at hcount
    by_cases hlive : id ∈ (notificationStep codec c call).1.ids
    · rw [if_pos hlive] at hcount ⊢
      omega
    · rw [if_neg hlive] at hcount ⊢
      omega
  · rintro rfl
    rw [step_restart hcodec hbefore.tidy]
    exact ⟨rfl, rfl, rfl⟩

def Sample.mail : NotificationRequest :=
  { app := "", summary := "mail", body := "", urgency := 1, replacesId := 0, actions := [{ key := "default", label := "" }] }

def Sample.notified : List NotificationCall := [.post Sample.mail 4000 10 false, .restart]

theorem notifications_closed_once_action :
    (Sample.notified ++ [NotificationCall.invoke 1 "default"]).length < 2 ^ 32 - 1 ∧
      (notificationStep compactCodec (after (notificationStep compactCodec) .default Sample.notified)
        (.invoke 1 "default")).2 = ([.action 1 "default", .closed 1 .dismissed], .invoked true) ∧
      ClosedOnce compactCodec Sample.notified (.invoke 1 "default")
        (after (notificationStep compactCodec) .default Sample.notified)
        (notificationStep compactCodec (after (notificationStep compactCodec) .default Sample.notified)
          (.invoke 1 "default")).1
        (notificationStep compactCodec (after (notificationStep compactCodec) .default Sample.notified)
          (.invoke 1 "default")).2.1
        (notificationStep compactCodec (after (notificationStep compactCodec) .default Sample.notified)
          (.invoke 1 "default")).2.2 := by
  have posted := accounted_reached compactCodec_lawful [.post Sample.mail 4000 10 false] (by decide)
  have restarted : after (notificationStep compactCodec) .default Sample.notified =
      after (notificationStep compactCodec) .default [.post Sample.mail 4000 10 false] := by
    rw [Sample.notified, ← singleton_append, after_append, after, step_restart compactCodec_lawful posted.tidy, after]
  refine ⟨by decide, ?_, notifications_closed_once compactCodec compactCodec_lawful _ _ (by decide)⟩
  rw [restarted]
  decide +kernel

end Jwm.Features
