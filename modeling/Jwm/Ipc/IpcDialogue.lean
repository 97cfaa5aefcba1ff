/-
The server and the caller of its polls: replies come in frame order.
-/
import Jwm.Ipc.ReplyOrder

namespace Jwm.Ipc

open List IncomingIpc

variable {V : Type} {json : Json V}

variable {error : String} {m : IncomingIpc V}

namespace IpcClient

variable {c c' : IpcClient}

/-! ## A client that is being answered -/

/-- The frames in `done` have their replies, and those in `rest`, the first of them valid, wait for the caller. -/
structure Served (json : Json V) (id : Nat) (answered : List (IncomingIpc V × IpcResponse V)) (owed : List (IncomingIpc V))
    (done rest : List (List Byte)) (c : IpcClient) : Prop where
  frames : c.frames = done ++ rest
  starts : ∀ line ∈ rest.head?, frameError json line = none
  doneMessages : answered.map Prod.fst = (messages json done).map (ofMessage id)
  restMessages : owed = (messages json rest).map (ofMessage id)
  lines : replies c.queued = replyLines json done (answered.map Prod.snd)
  answeredFrames : c.answeredFrames = answered.length
  deliveredFrames : c.deliveredFrames = answered.length + owed.length
  deferredErrors : c.deferredErrors = dueErrors json answered.length rest

/-- Of the messages of client `id`, those in `answered` have the caller's responses and those in `owed` have not. -/
def Serving (json : Json V) (id : Nat) (answered : List (IncomingIpc V × IpcResponse V)) (owed : List (IncomingIpc V)) (c : IpcClient) :
    Prop :=
  ∃ done rest, Served json id answered owed done rest c

variable {id : Nat} {answered : List (IncomingIpc V × IpcResponse V)} {owed : List (IncomingIpc V)} {done rest : List (List Byte)}

theorem Serving.new (json : Json V) (id : Nat) (stream : UnixStream) : Serving json id [] [] (IpcClient.new stream) :=
  ⟨[], [], rfl, nofun, rfl, rfl, rfl, rfl, rfl, rfl⟩

namespace Served

theorem rest_nil (h : Served json id answered [] done rest c) : rest = [] := by
  cases hrest : rest with
  | nil => rfl
  | cons line lines =>
    obtain ⟨message, hparse⟩ := parse_of_frameError (h.starts line (by rw [hrest]; rfl))
    have howed := h.restMessages
    rw [hrest, show messages json (line :: lines) = messages json [line] ++ messages json lines from messages_append [line] lines,
      messages_of_ok hparse] at howed
    cases howed

theorem length_answered (h : Served json id answered owed done rest c) : answered.length = (messages json done).length := by
  have := congrArg length h.doneMessages
  rwa [length_map, length_map] at this

theorem same (h : Served json id answered owed done rest c) (hs : SameReplies c c') : Served json id answered owed done rest c' :=
  ⟨hs.frames.trans h.frames, h.starts, h.doneMessages, h.restMessages, by rw [hs.queued]; exact h.lines,
    hs.answeredFrames.trans h.answeredFrames, hs.deliveredFrames.trans h.deliveredFrames, hs.deferredErrors.trans h.deferredErrors⟩

variable {line : List Byte}

theorem malformed_done (h : Served json id answered [] done [] c) (herror : frameError json line = some error) :
    Served json id answered [] (done ++ [line]) []
      { c.queueParseError json error with frames := c.frames ++ [line] } := by
  refine ⟨?_, nofun, ?_, rfl, ?_, h.answeredFrames, h.deliveredFrames, h.deferredErrors⟩
  · rw [h.frames, append_nil, append_nil]
  · rw [messages_append, messages_of_error herror, append_nil]
    exact h.doneMessages
  · show replies (c.queued ++ [errorLine json error]) = _
    have hresps := replyLines_append done [line] (answered.map Prod.snd) []
      (by rw [length_map]; exact h.length_answered)
    rw [append_nil, replyLines_error herror] at hresps
    rw [replies_append, h.lines, hresps]
    rfl

theorem malformed_rest (h : Served json id answered owed done rest c) (hrest : rest ≠ [])
    (herror : frameError json line = some error) :
    Served json id answered owed done (rest ++ [line])
      { c with frames := c.frames ++ [line], deferredErrors := c.deferredErrors ++ [(c.deliveredFrames, error)] } := by
  have howed : owed.length = (messages json rest).length := by rw [h.restMessages, length_map]
  refine ⟨?_, ?_, h.doneMessages, ?_, h.lines, h.answeredFrames, h.deliveredFrames, ?_⟩
  · rw [h.frames, append_assoc]
  · rw [head?_append_of_ne_nil _ hrest]
    exact h.starts
  · rw [messages_append, messages_of_error herror, append_nil]
    exact h.restMessages
  · rw [dueErrors_append, h.deferredErrors, h.deliveredFrames, howed]
    simp only [dueErrors, herror]

theorem valid (h : Served json id answered owed done rest c) {message : IpcMessage V}
    (hparse : json.parse line = .ok message) :
    Served json id answered (owed ++ [ofMessage id message]) done (rest ++ [line])
      { c with frames := c.frames ++ [line], deliveredFrames := c.deliveredFrames + 1 } := by
  refine ⟨?_, ?_, h.doneMessages, ?_, h.lines, h.answeredFrames, ?_, ?_⟩
  · rw [h.frames, append_assoc]
  · cases rest with
    | nil =>
      rintro line' ⟨⟩
      exact frameError_of_ok hparse
    | cons first more => exact h.starts
  · rw [messages_append, messages_of_ok hparse, map_append, ← h.restMessages]
    rfl
  · rw [h.deliveredFrames, length_append, length_singleton, Nat.add_assoc]
  · rw [dueErrors_append, h.deferredErrors, dueErrors, frameError_of_ok hparse]
    exact (append_nil _).symm

/-- The errors due at `seen` are those of the malformed frames in front. -/
theorem split_due (json : Json V) (seen : Nat) : ∀ (rest : List (List Byte)) (released held : List (Nat × String)),
    dueErrors json seen rest = released ++ held → (∀ d ∈ released, d.1 ≤ seen) → (∀ d ∈ held.head?, seen < d.1) →
    ∃ bad later, rest = bad ++ later ∧ (∀ line ∈ later.head?, frameError json line = none) ∧ messages json bad = [] ∧
      held = dueErrors json seen later ∧ replyLines json bad [] = released.map fun d => errorLine json d.2
  | [], released, held, hsplit, _, _ => by
    obtain ⟨rfl, rfl⟩ := append_eq_nil_iff.1 hsplit.symm
    exact ⟨[], [], rfl, nofun, rfl, rfl, rfl⟩
  | line :: lines, released, held, hsplit, hdue, hwaits => by
    cases herror : frameError json line with
    | none =>
      -- a valid frame: whatever is behind it waits
      refine ⟨[], line :: lines, rfl, ?_, rfl, ?_, ?_⟩
      · rintro line' ⟨⟩
        exact herror
      all_goals
        have hnone : released = [] := by
          refine eq_nil_iff_forall_not_mem.2 fun d hd => ?_
          have hmem : d ∈ dueErrors json (seen + 1) lines := by
            rw [dueErrors, herror] at hsplit
            dsimp only at hsplit
            rw [hsplit]
            exact mem_append_left held hd
          have := (le_of_dueErrors hmem).1
          have := hdue d hd
          omega
        subst hnone
      · exact hsplit.symm
      · rfl
    | some error =>
      rw [dueErrors, herror] at hsplit
      cases released with
      | nil =>
        rw [nil_append] at hsplit
        exact absurd (hwaits (seen, error) (by rw [← hsplit]; rfl)) (Nat.lt_irrefl seen)
      | cons first released =>
        rw [cons_append, List.cons.injEq] at hsplit
        obtain ⟨rfl, hsplit⟩ := hsplit
        obtain ⟨bad, later, hlines, hvalid, hmessages, hheld, hreplies⟩ :=
          split_due json seen lines released held hsplit (fun d hd => hdue d (mem_cons_of_mem _ hd)) hwaits
        refine ⟨line :: bad, later, by rw [hlines]; rfl, hvalid, ?_, hheld, ?_⟩
        · rw [show messages json (line :: bad) = messages json [line] ++ messages json bad from messages_append [line] bad,
            messages_of_error herror, hmessages]
          rfl
        · rw [replyLines_error herror, hreplies]
          rfl

theorem respond (h : Served json id answered (m :: owed) done rest c) (resp : IpcResponse V) :
    Serving json id (answered ++ [(m, resp)]) owed (c.sendResponse json resp).1 := by
  cases rest with
  | nil => exact absurd h.restMessages (cons_ne_nil _ _)
  | cons line lines =>
    have hvalid := h.starts line rfl
    obtain ⟨message, hparse⟩ := parse_of_frameError hvalid
    have hmessages := h.restMessages
    rw [show messages json (line :: lines) = messages json [line] ++ messages json lines from messages_append [line] lines,
      messages_of_ok hparse] at hmessages
    obtain ⟨rfl, rfl⟩ := List.cons.inj hmessages
    have hlength := h.length_answered
    have hdelivered := h.deliveredFrames
    have hcount : min (c.answeredFrames + 1) c.deliveredFrames = answered.length + 1 := by
      rw [h.answeredFrames, hdelivered, length_cons]
      omega
    have hdeferred : c.deferredErrors = dueErrors json (answered.length + 1) lines := by
      rw [h.deferredErrors, dueErrors, hvalid]
    have hresps : (answered.map Prod.snd).length = (messages json done).length := by rw [length_map, hlength]
    unfold sendResponse
    dsimp only
    rw [hcount]
    generalize hc₁ : ({ c with answeredFrames := answered.length + 1 } : IpcClient).queue .reply (json.response resp) = c₁
    have hqueued : c₁.queued = c.queued ++ [replyLine json resp] := by rw [← hc₁]; rfl
    have hdeferred₁ : c₁.deferredErrors = dueErrors json (answered.length + 1) lines := by rw [← hc₁]; exact hdeferred
    have hanswered₁ : c₁.answeredFrames = answered.length + 1 := by rw [← hc₁]; rfl
    have hdelivered₁ : c₁.deliveredFrames = c.deliveredFrames := by rw [← hc₁]; rfl
    have hframes₁ : c₁.frames = c.frames := by rw [← hc₁]; rfl
    obtain ⟨released, held, hsplit, hr⟩ := queueDueParseErrors_spec json c₁.deferredErrors c₁
    obtain ⟨bad, later, hlines, hlater, hbad, hheld, hreplies⟩ :=
      split_due json (answered.length + 1) lines released held (hdeferred₁ ▸ hsplit)
        (fun d hd => hanswered₁ ▸ hr.due d hd) (fun d hd => hanswered₁ ▸ hr.waits d hd)
    refine ⟨done ++ line :: bad, later, Served.same ?_ (flushOut_same _)⟩
    have hdone : messages json (done ++ line :: bad) = messages json done ++ [message] := by
      rw [messages_append, show messages json (line :: bad) = messages json [line] ++ messages json bad from messages_append [line] bad,
        messages_of_ok hparse, hbad, append_nil]
    refine ⟨?_, hlater, ?_, ?_, ?_, ?_, ?_, ?_⟩
    · rw [hr.frames, hframes₁, h.frames, hlines, append_assoc]
      rfl
    · rw [map_append, hdone, map_append, h.doneMessages]
      rfl
    · rw [hlines, messages_append, hbad]
      rfl
    · rw [hr.queued, hqueued, replies_append, replies_append, h.lines, replies_errorLines, map_append,
        replyLines_append done (line :: bad) _ _ hresps, map_singleton, replyLines_ok hvalid, hreplies, append_assoc]
      rfl
    · rw [hr.answeredFrames, hanswered₁, length_append, length_singleton]
    · rw [hr.deliveredFrames, hdelivered₁, hdelivered, length_append, length_cons, length_singleton]
      omega
    · rw [hr.deferredErrors, hheld, length_append, length_singleton]

end Served

namespace Serving

theorem same (h : Serving json id answered owed c) (hs : SameReplies c c') : Serving json id answered owed c' := by
  obtain ⟨done, rest, h⟩ := h
  exact ⟨done, rest, h.same hs⟩

theorem sendEvent (h : Serving json id answered owed c) (event : IpcEvent V) : Serving json id answered owed (c.sendEvent json event).1 := by
  obtain ⟨done, rest, h⟩ := h
  refine ⟨done, rest, Served.same ?_ (flushOut_same _)⟩
  refine ⟨h.frames, h.starts, h.doneMessages, h.restMessages, ?_, h.answeredFrames, h.deliveredFrames, h.deferredErrors⟩
  show replies (c.queued ++ [⟨.event, json.event event⟩]) = _
  rw [replies_append, h.lines]
  exact append_nil _

theorem respond (h : Serving json id answered (m :: owed) c) (resp : IpcResponse V) :
    Serving json id (answered ++ [(m, resp)]) owed (c.sendResponse json resp).1 := by
  obtain ⟨done, rest, h⟩ := h
  exact h.respond resp

theorem takeFrame (h : Serving json id answered owed c) (line : List Byte) :
    Serving json id answered (owed ++ (IpcServer.takeFrame json id c line).2) (IpcServer.takeFrame json id c line).1 := by
  obtain ⟨done, rest, h⟩ := h
  unfold IpcServer.takeFrame
  cases hparse : json.parse line with
  | ok message => exact ⟨done, rest ++ [line], h.valid hparse⟩
  | error error =>
    have herror := frameError_of_error hparse
    dsimp only
    rw [append_nil]
    unfold rejectFrame
    split
    next hnow =>
      obtain ⟨hall, _⟩ := hnow
      rw [h.answeredFrames, h.deliveredFrames] at hall
      obtain rfl : owed = [] := length_eq_zero_iff.1 (by omega)
      obtain rfl := h.rest_nil
      exact ⟨done ++ [line], [], (h.malformed_done herror).same (flushOut_same _)⟩
    next hlater =>
      refine ⟨done, rest ++ [line], h.malformed_rest ?_ herror⟩
      rintro rfl
      have howed : owed = [] := h.restMessages
      refine hlater ⟨?_, h.deferredErrors⟩
      rw [h.answeredFrames, h.deliveredFrames, howed]
      rfl

theorem takeFrames (id : Nat) : ∀ (lines : List (List Byte)) {owed : List (IncomingIpc V)} {c : IpcClient},
    Serving json id answered owed c →
    Serving json id answered (owed ++ (IpcServer.takeFrames json id c lines).2) (IpcServer.takeFrames json id c lines).1
  | [], owed, c, h => by
    show Serving json id answered (owed ++ []) c
    rw [append_nil]
    exact h
  | line :: lines, owed, c, h => by
    have hrest := takeFrames id lines (h.takeFrame line)
    rw [append_assoc] at hrest
    exact hrest

theorem deferredErrors_nil (h : Serving json id answered [] c) : c.deferredErrors = [] := by
  obtain ⟨done, rest, h⟩ := h
  obtain rfl := h.rest_nil
  exact h.deferredErrors

theorem visit (h : Serving json id answered [] c) (a b : Nat) :
    Serving json id answered (IpcServer.visit json id c a b).incoming (IpcServer.visit json id c a b).client := by
  have hrelease : c.releaseAbandonedReplies json = c := by
    unfold IpcClient.releaseAbandonedReplies
    rw [if_pos h.deferredErrors_nil]
  have hflushed := h.same (flushOut_same c)
  unfold IpcServer.visit
  rw [hrelease]
  generalize c.flushOut = flushed at hflushed ⊢
  obtain ⟨c₁, error⟩ := flushed
  cases error with
  | some error => exact hflushed
  | none =>
    have hread := hflushed.same (readMessages_inputOnly c₁ a b).same
    dsimp only at hread ⊢
    generalize c₁.readMessages a b = answer at hread ⊢
    obtain ⟨c₂, result, bytesRead⟩ := answer
    cases result with
    | error error => exact hread
    | ok lines => exact hread.takeFrames id lines

end Serving

/-! ## Any caller -/

/-- Whatever a call does, queued lines stay, and errors and bytes stay in order. -/
theorem acts_spec {call : IpcServer.Call V} (h : IpcServer.Acts json id c call c') :
    Grows c c' ∧ (Errors json c → Errors json c') := by
  cases h with
  | same => exact ⟨.refl c, fun h => h⟩
  | visited a b => exact ⟨(Grows.releaseAbandonedReplies json c).trans (.visit json id a b c), fun h => h.visit id a b⟩
  | responded resp => exact ⟨.sendResponse json c resp, fun h => h.sendResponse resp⟩
  | subscribed topics => exact ⟨⟨prefix_rfl, fun h => ⟨h.start_le, h.bytes⟩⟩, fun h => ⟨h.lines, h.due⟩⟩
  | received event => exact ⟨.sendEvent json c event, fun h => h.sendEvent event⟩

theorem errors_of_visit (h : Errors json c) (id a b : Nat) :
    (c.frames.filterMap (frameError json)).map (errorLine json) <+: parseErrors (IpcServer.visit json id c a b).client.queued := by
  obtain ⟨hreleased, hnone⟩ := h.releaseAbandonedReplies
  have hframes : (c.releaseAbandonedReplies json).frames = c.frames := by
    unfold releaseAbandonedReplies
    split
    · rfl
    · obtain ⟨_, _, _, hr⟩ := queueDueParseErrors_spec json c.deferredErrors { c with answeredFrames := c.deliveredFrames }
      exact hr.frames
  have hlines := hreleased.lines
  rw [hnone, map_nil, append_nil, hframes] at hlines
  rw [← hlines]
  obtain ⟨more, hmore⟩ := (Grows.visit json id a b c).queued
  exact ⟨parseErrors more, by rw [← parseErrors_append, hmore]⟩

theorem queued_of_sendResponse (json : Json V) (c : IpcClient) (resp : IpcResponse V) :
    ∃ errors, (c.sendResponse json resp).1.queued = c.queued ++ replyLine json resp :: errors ∧ ∀ line ∈ errors, line.kind = .parseError := by
  unfold sendResponse
  dsimp only
  generalize hc₁ : ({ c with answeredFrames := min (c.answeredFrames + 1) c.deliveredFrames } : IpcClient).queue .reply
    (json.response resp) = c₁
  have hqueued : c₁.queued = c.queued ++ [replyLine json resp] := by rw [← hc₁]; rfl
  obtain ⟨released, held, _, hr⟩ := queueDueParseErrors_spec json c₁.deferredErrors c₁
  refine ⟨released.map fun d => errorLine json d.2, ?_, ?_⟩
  · rw [(flushOut_same _).queued, hr.queued, hqueued, append_assoc]
    rfl
  · intro line hline
    obtain ⟨d, _, rfl⟩ := mem_map.1 hline
    rfl

end IpcClient

/-! ## Runs -/

/-- The server, the unanswered messages of the last poll, and for each client the answered ones with the responses. -/
structure Dialogue (V : Type) where
  server : IpcServer
  owed : List (IncomingIpc V)
  answered : Nat → List (IncomingIpc V × IpcResponse V)

namespace Dialogue

open IpcServer IpcClient

def new : Dialogue V := ⟨IpcServer.new, [], fun _ => []⟩

def step (json : Json V) (d : Dialogue V) (call : Call V) : Dialogue V × List (IncomingIpc V) :=
  let answer := d.server.call json call
  match call, d.owed with
  | .pollClients, _ => ({ d with server := answer.1, owed := answer.2 }, answer.2)
  | .respond _ resp, m :: owed =>
    (⟨answer.1, owed, Function.update d.answered m.clientId (d.answered m.clientId ++ [(m, resp)])⟩, answer.2)
  | _, _ => ({ d with server := answer.1 }, answer.2)

/-- The caller responds to the messages in order, and polls when there are none left. -/
def Answers (d : Dialogue V) : Call V → Prop
  | .pollClients => d.owed = []
  | .respond clientId _ => d.owed.head?.map IncomingIpc.clientId = some clientId
  | _ => True

theorem step_server (json : Json V) (d : Dialogue V) (call : Call V) : (d.step json call).1.server = (d.server.call json call).1 := by
  unfold step
  split <;> rfl

/-- What holds of the clients whatever the caller does. -/
structure Sound (json : Json V) (d : Dialogue V) : Prop where
  known : ∀ id c, d.server.clients.get? id = some c → id < d.server.nextId
  errors : ∀ id c, d.server.clients.get? id = some c → Errors json c
  sent : ∀ id c, d.server.clients.get? id = some c → Sent c

theorem Sound.step {d : Dialogue V} (h : Sound json d) (call : Call V) : Sound json (d.step json call).1 := by
  refine ⟨fun id c hc => ?_, fun id c hc => ?_, fun id c hc => ?_⟩ <;> rw [step_server] at hc
  · rw [step_server]
    rcases call_client call hc with ⟨_, hlt, _⟩ | ⟨before, hbefore, _⟩
    · exact hlt
    · exact Nat.lt_of_lt_of_le (h.known id before hbefore) (call_nextId json d.server call)
  · rcases call_client call hc with ⟨_, _, incoming, reads, writes, rfl⟩ | ⟨before, hbefore, hacts⟩
    · exact .new _
    · exact (acts_spec hacts).2 (h.errors id before hbefore)
  · rcases call_client call hc with ⟨_, _, incoming, reads, writes, rfl⟩ | ⟨before, hbefore, hacts⟩
    · exact .new _ rfl
    · exact (acts_spec hacts).1.sent (h.sent id before hbefore)

/-- What holds of the clients of a caller that answers. -/
structure InTurn (json : Json V) (d : Dialogue V) : Prop where
  serving : ∀ id c, d.server.clients.get? id = some c → Serving json id (d.answered id) (ofClient id d.owed) c
  known : ∀ id c, d.server.clients.get? id = some c → id < d.server.nextId
  owed : ∀ m ∈ d.owed, m.clientId < d.server.nextId
  answered : ∀ id, d.server.nextId ≤ id → d.answered id = []

namespace InTurn

variable {d : Dialogue V}

theorem new (json : Json V) : InTurn json (new : Dialogue V) := ⟨nofun, nofun, nofun, fun _ _ => rfl⟩

section

variable (h : InTurn json d)
include h

theorem known_call (call : Call V) {id : Nat} {c : IpcClient} (hc : (d.server.call json call).1.clients.get? id = some c) : id <
    (d.server.call json call).1.nextId := by
  rcases call_client call hc with ⟨_, hlt, _⟩ | ⟨before, hbefore, _⟩
  · exact hlt
  · exact Nat.lt_of_lt_of_le (h.known id before hbefore) (call_nextId json d.server call)

theorem serving_new {id : Nat} (hid : d.server.nextId ≤ id) (stream : UnixStream) :
    Serving json id (d.answered id) (ofClient id d.owed) (IpcClient.new stream) := by
  have howed : ofClient id d.owed = [] := by
    refine filter_eq_nil_iff.2 fun m hm heq => ?_
    have := h.owed m hm
    have := of_decide_eq_true heq
    omega
  rw [h.answered id hid, howed]
  exact .new json id stream

theorem step_other (call : Call V) (hpoll : call ≠ .pollClients) (hrespond : ∀ clientId resp, call ≠ .respond clientId resp) :
    InTurn json { d with server := (d.server.call json call).1 } := by
  have hle := call_nextId json d.server call
  refine ⟨fun id c hc => ?_, fun id c hc => h.known_call call hc, fun m hm => Nat.lt_of_lt_of_le (h.owed m hm) hle,
    fun id hid => h.answered id (hle.trans hid)⟩
  rcases call_client call hc with ⟨hid, _, incoming, reads, writes, rfl⟩ | ⟨before, hbefore, hacts⟩
  · exact h.serving_new hid _
  · have hserving := h.serving id before hbefore
    cases hacts with
    | same => exact hserving
    | visited => exact absurd rfl hpoll
    | responded resp => exact absurd rfl (hrespond id resp)
    | subscribed topics => exact hserving.same ⟨rfl, rfl, rfl, rfl, rfl⟩
    | received event => exact hserving.sendEvent event

theorem step_poll (howed : d.owed = []) :
    InTurn json { d with server := (d.server.pollClients json).1, owed := (d.server.pollClients json).2 } := by
  have hpoll := poll_spec json d.server
  have hnext : (d.server.pollClients json).1.nextId = d.server.nextId := hpoll.nextId
  refine ⟨fun id c hc => ?_, fun id c hc => h.known_call .pollClients hc, fun m hm => ?_, fun id hid => h.answered id (hnext ▸ hid)⟩
  · obtain ⟨before, hbefore, hcase⟩ := hpoll.client id c (get?_removeAll _ hc)
    have hserving := h.serving id before hbefore
    rw [howed] at hserving
    rcases hcase with ⟨_, rfl, hnone⟩ | ⟨_, a, b, rfl, hincoming⟩
    · show Serving json id (d.answered id) (ofClient id (d.server.poll json).incoming) c
      rw [hnone]
      exact hserving
    · show Serving json id (d.answered id) (ofClient id (d.server.poll json).incoming) _
      rw [hincoming]
      exact hserving.visit a b
  · obtain ⟨c, hc⟩ := hpoll.known m hm
    rw [hnext]
    exact h.known _ c hc

theorem step_respond {owed : List (IncomingIpc V)} (howed : d.owed = m :: owed) (resp : IpcResponse V) :
    InTurn json ⟨(d.server.call json (.respond m.clientId resp)).1, owed,
      Function.update d.answered m.clientId (d.answered m.clientId ++ [(m, resp)])⟩ := by
  have hle := call_nextId json d.server (.respond m.clientId resp)
  have hm : m.clientId < d.server.nextId := h.owed m (howed ▸ mem_cons_self)
  refine ⟨fun id c hc => ?_, fun id c hc => h.known_call _ hc, fun m' hm' => ?_, fun id hid => ?_⟩
  · rcases call_client _ hc with ⟨hid, hlt, _⟩ | ⟨before, hbefore, hacts⟩
    · have hsame : (d.server.call json (.respond m.clientId resp)).1.nextId = d.server.nextId := by
        simp only [IpcServer.call, IpcServer.respond]
        split
        · rfl
        · split <;> rfl
      exact absurd (hsame ▸ hlt) (Nat.not_lt_of_le hid)
    · have hserving := h.serving id before hbefore
      rw [howed] at hserving
      cases hacts with
      | same hother =>
        have hne : m.clientId ≠ id := fun heq => hother resp (heq ▸ rfl)
        have hskip : ofClient id (m :: owed) = ofClient id owed := filter_cons_of_neg (by simpa using hne)
        rw [hskip] at hserving
        show Serving json id (Function.update d.answered m.clientId _ id) _ _
        rw [Function.update_of_ne hne.symm]
        exact hserving
      | responded =>
        have htake : ofClient m.clientId (m :: owed) = m :: ofClient m.clientId owed := filter_cons_of_pos (by simp)
        rw [htake] at hserving
        show Serving json m.clientId (Function.update d.answered m.clientId _ m.clientId) _ _
        rw [Function.update_self]
        exact hserving.respond resp
  · exact Nat.lt_of_lt_of_le (h.owed m' (howed ▸ mem_cons_of_mem m hm')) hle
  · have hid' := hle.trans hid
    show Function.update d.answered m.clientId _ id = []
    rw [Function.update_of_ne (by omega)]
    exact h.answered id hid'

theorem step {call : Call V} (hcall : d.Answers call) : InTurn json (d.step json call).1 := by
  cases call with
  | acceptConnections pending => exact h.step_other _ nofun nofun
  | pollClients => exact h.step_poll hcall
  | respond clientId resp =>
    obtain ⟨m, hm, rfl⟩ := Option.map_eq_some_iff.1 hcall
    obtain ⟨owed, howed⟩ := head?_eq_some_iff.1 hm
    unfold Dialogue.step
    rw [howed]
    exact h.step_respond howed resp
  | subscribe clientId topics | broadcast event => exact h.step_other _ nofun nofun

end

end InTurn

/-- With a caller that answers in order, the lines queued for a client, events apart, are the replies to its frames in frame
order. With any caller, each parse error is queued once and in frame order, lines are only added, and what is on the wire
with what is in the buffer is what was queued. -/
theorem replies_in_frame_order (json : Json V) (calls : List (Call V)) :
    let d := after (step json) new calls
    (Along Answers (step json) new calls → ∀ id c, d.server.clients.get? id = some c →
      replies c.queued = replyLines json c.frames ((d.answered id).map Prod.snd) ∧
      (messages json c.frames).map (IncomingIpc.ofMessage id) = (d.answered id).map Prod.fst ++ ofClient id d.owed ∧
      (d.owed = [] → (replies c.queued).length = c.frames.length ∧ c.deferredErrors = [])) ∧
    (∀ id c, d.server.clients.get? id = some c →
      parseErrors c.queued ++ c.deferredErrors.map (fun e => errorLine json e.2) =
        (c.frames.filterMap (frameError json)).map (errorLine json) ∧
      c.stream.sent ++ c.outBuf.drop c.outStart = c.queued.flatMap QueuedLine.bytes) ∧
    ∀ call id c c', d.server.clients.get? id = some c → (d.step json call).1.server.clients.get? id = some c' →
      c.queued <+: c'.queued ∧
      (call = .pollClients → id ∈ (d.server.poll json).visited →
        (c.frames.filterMap (frameError json)).map (errorLine json) <+: parseErrors c'.queued) ∧
      ∀ resp, call = .respond id resp → ∃ errors, c'.queued = c.queued ++ replyLine json resp :: errors ∧
        ∀ line ∈ errors, line.kind = .parseError := by
  intro d
  have hsound : Sound json d := after_invariant (fun _ call h => h.step call) ⟨nofun, nofun, nofun⟩ calls
  refine ⟨fun hanswers id c hc => ?_, fun id c hc => ⟨(hsound.errors id c hc).lines, (hsound.sent id c hc).bytes⟩, ?_⟩
  · have keep : ∀ (_ : List (Call V × List (IncomingIpc V))) (d : Dialogue V) (call : Call V), d.Answers call → InTurn json d →
        InTurn json (d.step json call).1 := fun _ _ _ hcall h => h.step hcall
    have hturn : InTurn json d := trace_invariant_along keep (InTurn.new json) hanswers
    obtain ⟨done, rest, h⟩ := hturn.serving id c hc
    have hresps : ((d.answered id).map Prod.snd).length = (messages json done).length := by
      rw [length_map]
      exact h.length_answered
    have hlines : replies c.queued = replyLines json c.frames ((d.answered id).map Prod.snd) := by
      rw [h.lines, h.frames, ← append_nil ((d.answered id).map Prod.snd), replyLines_append done rest _ [] hresps, append_nil,
        replyLines_waiting h.starts, append_nil]
    refine ⟨hlines, ?_, fun howed => ?_⟩
    · rw [h.frames, messages_append, map_append, h.doneMessages, ← h.restMessages]
    · have hnone : ofClient id d.owed = [] := by rw [howed]; rfl
      rw [hnone] at h
      obtain rfl := h.rest_nil
      refine ⟨?_, h.deferredErrors⟩
      rw [h.lines, h.frames, append_nil]
      exact length_replyLines done _ hresps
  · intro call id c c' hc hc'
    rw [step_server] at hc'
    rcases call_client call hc' with ⟨hid, _⟩ | ⟨before, hbefore, hacts⟩
    · exact absurd (hsound.known id c hc) (Nat.not_lt_of_le hid)
    obtain rfl := Option.some.inj (hc.symm.trans hbefore)
    refine ⟨(acts_spec hacts).1.queued, ?_, ?_⟩
    · rintro rfl hvisited
      obtain ⟨before, hbefore, hcase⟩ := (poll_spec json d.server).client id c' (get?_removeAll _ hc')
      obtain rfl := Option.some.inj (hc.symm.trans hbefore)
      obtain ⟨_, a, b, rfl, _⟩ := hcase.resolve_left fun hnot => hnot.1 hvisited
      exact errors_of_visit (hsound.errors id c hc) id a b
    · rintro resp rfl
      cases hacts with
      | same hother => exact absurd rfl (hother resp)
      | responded => exact queued_of_sendResponse json c resp

instance (d : Dialogue V) : ∀ call, Decidable (d.Answers call)
  | .pollClients => inferInstanceAs (Decidable (d.owed = []))
  | .respond clientId _ => inferInstanceAs (Decidable (d.owed.head?.map IncomingIpc.clientId = some clientId))
  | .acceptConnections _ | .subscribe .. | .broadcast _ => isTrue trivial

/-- A malformed frame between two valid ones, over a socket that takes a byte at a time. -/
theorem replies_in_frame_order_mixed :
    let json : Json Nat :=
      ⟨fun bytes => if bytes = [113] then .ok (.query "q" 0) else .error "bad", fun resp => if resp.success then [114] else [101],
        fun _ => [118]⟩
    let calls : List (Call Nat) :=
      [.acceptConnections [.connection [113, 10, 120, 10, 113, 10] [.ready 9] [.written 1, .wouldBlock] true],
        .pollClients, .respond 1 ⟨true, none, none⟩, .respond 1 ⟨true, none, none⟩]
    ∃ c, (after (step json) new calls).server.clients.get? 1 = some c ∧ c.frames = [[113], [120], [113]] ∧
      replies c.queued = replyLines json [[113], [120], [113]] [⟨true, none, none⟩, ⟨true, none, none⟩] := by
  intro json calls
  have hanswers : Along Answers (step json) new calls := by decide +kernel
  have hsome : ((after (step json) new calls).server.clients.get? 1).isSome = true := by decide +kernel
  obtain ⟨c, hc⟩ := Option.isSome_iff_exists.1 hsome
  have hframes : ((after (step json) new calls).server.clients.get? 1).map IpcClient.frames = some [[113], [120], [113]] := by decide +kernel
  rw [hc] at hframes
  have h := ((replies_in_frame_order json calls).1 hanswers 1 c hc).1
  have hresps : ((after (step json) new calls).answered 1).map Prod.snd = [⟨true, none, none⟩, ⟨true, none, none⟩] := by decide +kernel
  rw [Option.some.inj hframes, hresps] at h
  exact ⟨c, hc, Option.some.inj hframes, h⟩

end Dialogue

end Jwm.Ipc
