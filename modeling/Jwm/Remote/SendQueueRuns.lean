/-
Runs of the send queue. What it delivers leaves the same keys and buttons held as what it accepted just when no push drops
queued input for a batch that then does not fit.
-/
import Jwm.Remote.SendQueueSteps

namespace Jwm.Remote.Sender

open List

/-! ## Histories -/

theorem deliveredEvents_eq (history : List (Call × Answer)) (q : Queue) :
    deliveredEvents history q = (poppedRecords history).flatMap inputEvents ++ queuedEvents q := by
  rw [deliveredEvents, queuedEvents, append_assoc, flatMap_append]

theorem acceptedEvents_append (a b : List (Call × Answer)) : acceptedEvents (a ++ b) = acceptedEvents a ++ acceptedEvents b :=
  flatMap_append

theorem poppedRecords_append (a b : List (Call × Answer)) : poppedRecords (a ++ b) = poppedRecords a ++ poppedRecords b :=
  flatMap_append

variable {history : List (Call × Answer)} {q : Queue}

/-- A call that does not spill keeps the delivered events a trimmed history of the accepted ones. -/
theorem trimmed_call (h : Running q)
    (ht : Trimmed isRelease (acceptedEvents history) (deliveredEvents history q)) {call : Call} (hno : ¬ Spills q call) :
    Trimmed isRelease (acceptedEvents (history ++ [(call, (q.call call).2)]))
      (deliveredEvents (history ++ [(call, (q.call call).2)]) (q.call call).1) := by
  rw [deliveredEvents_eq] at ht ⊢
  rw [acceptedEvents_append, poppedRecords_append]
  cases call with
  | push kind payload =>
    obtain ⟨-, hcase⟩ := push_cases h kind payload
    show Trimmed _ (_ ++ acceptedEvents [(Call.push kind payload, Answer.pushed (q.push kind payload).2)])
      ((poppedRecords history ++ []).flatMap inputEvents ++ queuedEvents (q.push kind payload).1)
    rw [append_nil]
    rcases hcase with ⟨error, herr, hcontrol, hbulk, -⟩ | ⟨_, -, -, hspill⟩ | ⟨hok, -, hnone, hevents⟩ |
      ⟨hok, -, hany, hevents⟩
    · have hsame : queuedEvents (q.push kind payload).1 = queuedEvents q := by
        rw [queuedEvents, hcontrol, hbulk, queuedEvents]
      rw [herr, hsame]
      exact (append_nil (acceptedEvents history)).symm ▸ ht
    · exact absurd hspill hno
    · rw [hok, hevents, ← append_assoc]
      have haccepted : acceptedEvents [(Call.push kind payload, .pushed (.ok ()))] = inputEvents ⟨kind, payload⟩ :=
        append_nil _
      rw [haccepted]
      exact ht.append hnone
    · rw [hok, hevents]
      have haccepted : acceptedEvents [(Call.push kind payload, .pushed (.ok ()))] = inputEvents ⟨kind, payload⟩ :=
        append_nil _
      rw [haccepted]
      exact ht.fence hany (sublist_append_left _ _)
  | pop =>
    obtain ⟨-, hevents⟩ := pop_cases h
    have hpopped : poppedRecords [(Call.pop, (q.call .pop).2)] = q.pop.2.toList := by
      show poppedRecords [(Call.pop, Answer.popped q.pop.2)] = _
      cases q.pop.2 <;> rfl
    show Trimmed _ (acceptedEvents history ++ []) (_ ++ queuedEvents q.pop.1)
    rw [hpopped, flatMap_append, append_assoc, hevents, append_nil]
    exact ht

theorem recordSuccess_release (held held' : List HeldInput) (event : InputEvent) (physical : Option Byte)
    (h : isRelease event = true) : recordSuccess held event physical = recordSuccess held' event physical := by
  obtain rfl := eq_of_beq h
  rfl

/-! ## Closing -/

/-- At most one release, then `Close`. -/
def Farewell (records : List Record) : Prop :=
  ∃ release, records = release ++ [⟨.close, []⟩] ∧ (release = [] ∨
    ∃ payload, release = [⟨.inputBatch, payload⟩] ∧ inputEvents ⟨.inputBatch, payload⟩ = [.releaseAll])

/-- A closed queue: what has been popped of it and what it holds are the `records` of the close. -/
structure Closed (records : List Record) (history : List (Call × Answer)) (q : Queue) : Prop extends Counted q where
  closed : ∃ error, q.check = .error error
  bulkEmpty : q.bulk = []
  records : poppedRecords history ++ q.control = records

theorem length_release (source geometry : BitVec 64) : (sourceInputBytes source geometry [.releaseAll]).length = 18 := by
  rw [sourceInputBytes, length_append, length_append, length_wordBytes, length_wordBytes]
  rfl

theorem release_valid : BatchValid [.releaseAll] where
  nonempty := cons_ne_nil _ _
  length := by decide
  events event h := by
    rw [mem_singleton.1 h]
    rfl

theorem check_closing (h : q.closing = true) : ∃ error, q.check = .error error := by
  unfold Queue.check
  cases q.error with
  | some error => exact ⟨error, rfl⟩
  | none =>
    refine ⟨"remote sender stopped", ?_⟩
    rw [h, Bool.or_true]
    rfl

theorem close_spec (h : Running q) (inputEnabled : Bool) :
    ∃ q' records, q.close inputEnabled = some q' ∧ Farewell records ∧ Closed records [] q' := by
  cases inputEnabled with
  | false =>
    refine ⟨_, [⟨.close, []⟩], rfl, ⟨[], rfl, .inl rfl⟩, ⟨rfl, rfl, Nat.zero_le _, Nat.zero_le _⟩, check_closing rfl, rfl, rfl⟩
  | true =>
    obtain ⟨source, geometry, hscope, hs, hg⟩ : ∃ source geometry : BitVec 64,
        q.inputScope.getD (1, 1) = (source, geometry) ∧ source ≠ 0 ∧ geometry ≠ 0 := by
      cases hq : q.inputScope with
      | none => exact ⟨1, 1, rfl, by decide, by decide⟩
      | some scope => exact ⟨scope.1, scope.2, rfl, h.scope _ _ hq⟩
    rcases encodeSourceInputInto_spec source geometry [.releaseAll] [] with ⟨-, -, -, he⟩ | ⟨hno, -⟩
    · have hlen := length_release source geometry
      have hclose : q.close true = some { q with
          control := [⟨.inputBatch, sourceInputBytes source geometry [.releaseAll]⟩, ⟨.close, []⟩]
          bulk := []
          controlBytes := (sourceInputBytes source geometry [.releaseAll]).length
          bulkBytes := 0
          closing := true } := by
        unfold Queue.close
        simp only [hscope, he, if_true]
        rfl
      have hrelease := inputEvents_batch (decodeSourceInput_eq_ok.2 ⟨hs, hg, release_valid, rfl⟩)
      refine ⟨_, _, hclose, ⟨[_], rfl, .inr ⟨_, rfl, hrelease⟩⟩, ⟨rfl, rfl, ?_, Nat.zero_le _⟩, check_closing rfl, rfl, rfl⟩
      show (sourceInputBytes source geometry [.releaseAll]).length ≤ controlBytesLimit
      rw [hlen]
      decide
    · exact absurd ⟨hs, hg, release_valid⟩ hno

theorem closed_call {records : List Record} (h : Closed records history q)
    (call : Call) : Closed records (history ++ [(call, (q.call call).2)]) (q.call call).1 := by
  obtain ⟨error, hcheck⟩ := h.closed
  cases call with
  | push kind payload =>
    have hpush : q.push kind payload = (q, .error error) := by rw [Queue.push, hcheck]
    show Closed records (history ++ [(_, .pushed (q.push kind payload).2)]) (q.push kind payload).1
    rw [hpush]
    refine { h with records := ?_ }
    rw [poppedRecords_append]
    show poppedRecords history ++ [] ++ q.control = records
    rw [append_nil, h.records]
  | pop =>
    show Closed records (history ++ [(_, .popped q.pop.2)]) q.pop.1
    unfold Queue.pop
    split
    · rename_i record control hcontrol
      have hbytes := h.control
      have hlimit := h.controlLimit
      have hrecords := h.records
      rw [hcontrol] at hrecords
      rw [hcontrol, payloadBytes_cons] at hbytes
      refine ⟨⟨?_, h.bulk, ?_, h.bulkLimit⟩, ⟨error, hcheck⟩, h.bulkEmpty, ?_⟩
      · simp only
        omega
      · simp only
        omega
      · rw [poppedRecords_append, append_assoc]
        exact hrecords
    · rename_i hcontrol
      rw [h.bulkEmpty]
      refine { h with records := ?_ }
      rw [poppedRecords_append]
      show poppedRecords history ++ [] ++ q.control = records
      rw [append_nil, h.records]

/-! ## Faithful runs -/

def ShutsDown (q : Queue) : Prop :=
  ∀ inputEnabled, ∃ closed records, q.close inputEnabled = some closed ∧ Farewell records ∧
    ∀ calls, poppedRecords (trace Queue.call closed calls) <+: records ∧ Counted (after Queue.call closed calls)

/-- What the queue owes at a point of a run. -/
structure Delivers (history : List (Call × Answer)) (q : Queue) : Prop where
  counted : Counted q
  events : Trimmed isRelease (acceptedEvents history) (deliveredEvents history q)
  held : ∀ physical held, replay physical held (deliveredEvents history q) = replay physical held (acceptedEvents history)
  shutsDown : ShutsDown q

structure Faithful (calls : List Call) : Prop where
  delivers : ∀ made rest, calls = made ++ rest → Delivers (trace Queue.call {} made) (after Queue.call {} made)
  keeps : Along KeepsRecords Queue.call {} calls

theorem shutsDown (h : Running q) : ShutsDown q := by
  intro inputEnabled
  obtain ⟨closed, records, hclose, hfarewell, hclosed⟩ := close_spec h inputEnabled
  refine ⟨closed, records, hclose, hfarewell, fun calls => ?_⟩
  have hrun := trace_invariant (I := Closed records) (fun _ _ call h => closed_call h call) hclosed calls
  exact ⟨⟨_, hrun.records⟩, hrun.toCounted⟩

theorem delivers_of_trimmed (h : Running q)
    (ht : Trimmed isRelease (acceptedEvents history) (deliveredEvents history q)) : Delivers history q where
  counted := h.toCounted
  events := ht
  held physical held := ht.foldl_eq (fun s s' e he => recordSuccess_release s s' e (physical e) he) held
  shutsDown := shutsDown h

theorem keepsRecords_iff (h : Running q) (call : Call) : KeepsRecords q call ↔ ¬ Spills q call := by
  cases call with
  | push kind payload =>
    obtain ⟨-, hcase⟩ := push_cases h kind payload
    rcases hcase with ⟨error, -, hcontrol, hbulk, hno⟩ | ⟨error, herr, hcontrol, hspill⟩ | ⟨hok, hno, -⟩ | ⟨hok, hno, -⟩
    · exact ⟨fun _ => hno, fun _ _ _ => ⟨hcontrol, hbulk⟩⟩
    · exact ⟨fun hkeep => absurd (hkeep error herr).1 hcontrol, fun hno => absurd hspill hno⟩
    · refine ⟨fun _ => hno, fun _ error herr => ?_⟩
      rw [hok] at herr
      cases herr
    · refine ⟨fun _ => hno, fun _ error herr => ?_⟩
      rw [hok] at herr
      cases herr
  | pop => exact ⟨fun _ h => h, fun _ => trivial⟩

theorem along_keepsRecords : ∀ {calls : List Call} {q : Queue}, Running q →
    (Along KeepsRecords Queue.call q calls ↔ Along (fun q call => ¬ Spills q call) Queue.call q calls)
  | [], _, _ => Iff.rfl
  | call :: _, _, h => and_congr (keepsRecords_iff h call) (along_keepsRecords (running_call h call))

/-- The queue keeps its promises over a run just when no push of it spills. -/
theorem faithful_iff (calls : List Call) :
    Faithful calls ↔ Along (fun q call => ¬ Spills q call) Queue.call {} calls := by
  refine ⟨fun h => (along_keepsRecords running_empty).1 h.keeps, fun h => ⟨?_, (along_keepsRecords running_empty).2 h⟩⟩
  rintro made rest rfl
  have hmade := (along_append.1 h).1
  have hrun := trace_invariant_along
    (I := fun history q => Running q ∧ Trimmed isRelease (acceptedEvents history) (deliveredEvents history q))
    (fun history q call hno hi => ⟨running_call hi.1 call, trimmed_call hi.1 hi.2 hno⟩)
    ⟨running_empty, Trimmed.nil⟩ hmade
  exact delivers_of_trimmed hrun.1 hrun.2

/-- A long control record leaves room for one edge; the release of the next batch drops it, and with the edge that
follows it the batch does not fit. -/
def spillingCalls (long : List Byte) : List Call :=
  [.push .key long, .push .inputBatch (sourceInputBytes 1 1 [.key 42 true]),
    .push .inputBatch (sourceInputBytes 1 1 [.releaseAll, .key 43 true])]

theorem decode_unscoped {events : List InputEvent} (hv : BatchValid events) :
    decodeSourceInput (sourceInputBytes 1 1 events) = .ok (1, 1, events) :=
  decodeSourceInput_eq_ok.2 ⟨by decide, by decide, hv, rfl⟩

variable {long : List Byte}

theorem push_long (hlong : long.length = 131052) :
    Queue.push {} .key long = ({ controlBytes := 0 + long.length, control := [⟨.key, long⟩] }, .ok ()) := by
  have hroom : full [] 0 controlRecords controlBytesLimit long = false :=
    full_eq_false.2 ⟨by decide, by rw [hlong]; decide⟩
  rw [push_live running_empty]
  show Queue.enqueue {} .key long = _
  rw [enqueue_control long rfl rfl, if_neg (Bool.eq_false_iff.1 hroom)]
  rfl

theorem push_edge (hlong : long.length = 131052)
    (h : Running { controlBytes := 0 + long.length, control := [⟨.key, long⟩] }) :
    ∃ bytes scope, Queue.push { controlBytes := 0 + long.length, control := [⟨.key, long⟩] } .inputBatch
        (sourceInputBytes 1 1 [.key 42 true]) =
      ({ controlBytes := bytes, inputScope := scope
         control := [⟨.key, long⟩, ⟨.inputBatch, sourceInputBytes 1 1 [.key 42 true]⟩] }, .ok ()) := by
  have hedge := @decode_unscoped [.key 42 true] ⟨cons_ne_nil _ _, by decide, by decide⟩
  have hlen : (sourceInputBytes 1 1 [.key 42 true]).length = 20 := by decide
  have hroom : full [⟨.key, long⟩] (0 + long.length) controlRecords controlBytesLimit
      (sourceInputBytes 1 1 [.key 42 true]) = false :=
    full_eq_false.2 ⟨by rw [length_singleton]; decide, by rw [hlen, hlong]; decide⟩
  have hpos : rposition (· == .releaseAll) [InputEvent.key 42 true] = none := by decide
  refine ⟨0 + long.length + (sourceInputBytes 1 1 [.key 42 true]).length, some (1, 1), ?_⟩
  rw [push_live h]
  unfold Queue.fence
  rw [if_pos rfl, hedge]
  simp only [hpos]
  rw [enqueue_control _ rfl rfl, if_neg (Bool.eq_false_iff.1 hroom)]
  rfl

theorem spillingCalls_lose (hlong : long.length = 131052) :
    ¬ Along KeepsRecords Queue.call {} (spillingCalls long) := by
  have hbatch := @decode_unscoped [.releaseAll, .key 43 true] ⟨cons_ne_nil _ _, by decide, by decide⟩
  have hfirst := push_long hlong
  have hrun := running_call running_empty (.push .key long)
  simp only [Queue.call, hfirst] at hrun
  obtain ⟨bytes, scope, hsecond⟩ := push_edge hlong hrun
  have hrun' := running_call hrun (.push .inputBatch (sourceInputBytes 1 1 [.key 42 true]))
  simp only [Queue.call, hsecond] at hrun'
  rintro ⟨-, -, hkeep, -⟩
  simp only [Queue.call, hfirst, hsecond] at hkeep
  refine (keepsRecords_iff hrun' _).1 hkeep
    ⟨rfl, 1, 1, _, 0, hbatch, by decide, ⟨_, mem_cons_of_mem _ mem_cons_self, rfl⟩, ?_⟩
  have hlen : (sourceInputBytes 1 1 [.releaseAll, .key 43 true]).length = 21 := by decide
  have hother : unfenced [⟨.key, long⟩, ⟨.inputBatch, sourceInputBytes 1 1 [.key 42 true]⟩] = [⟨.key, long⟩] := rfl
  rw [hother, payloadBytes_single, hlong, drop_zero, hlen]
  decide

/-- The edge that was accepted first is neither sent nor queued. -/
theorem spilled_edge_lost : ¬ Faithful (spillingCalls (List.replicate 131052 0)) := fun h =>
  spillingCalls_lose length_replicate h.keeps

end Jwm.Remote.Sender
