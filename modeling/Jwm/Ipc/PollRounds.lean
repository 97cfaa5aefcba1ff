/-
The polls of the control server as rounds of one sweep over the client ids.
-/
import Jwm.Data.KeySum
import Jwm.Data.Sweep
import Jwm.Ipc.FrameInput
import Jwm.Ipc.IpcServer

namespace Jwm.Ipc

open List Option

variable {V : Type}

/-! ## Budgets -/

variable {limit : Nat} {messages : List (List Byte)} {c' : IpcClient}

namespace IpcClient

variable {c : IpcClient}

theorem length_scanLines (buf : List Byte) : ∀ (rest : List Byte) (lineStart scanPos : Nat) (messages : List (List Byte)),
    messages.length < limit → (scanLines buf limit rest lineStart scanPos messages).2.2.length ≤ limit
  | [], _, _, _, h => Nat.le_of_lt h
  | byte :: rest, lineStart, scanPos, messages, h => by
    unfold scanLines
    split
    · exact length_scanLines buf rest lineStart (scanPos + 1) messages h
    dsimp only
    split
    · exact length_scanLines buf rest (scanPos + 1) (scanPos + 1) messages h
    split
    next hfull => exact Nat.le_of_eq hfull
    next hfull =>
      refine length_scanLines buf rest (scanPos + 1) (scanPos + 1) _ ?_
      rw [length_append, length_singleton] at hfull ⊢
      omega

/-- Whatever its cursors are, a client gives up no more messages than it is asked for, and leaves its socket alone. -/
theorem takeCompleteMessages_within (c : IpcClient) (limit : Nat) :
    (c.takeCompleteMessages limit).2.length ≤ limit ∧ (c.takeCompleteMessages limit).1.stream = c.stream := by
  unfold takeCompleteMessages
  split
  · exact ⟨Nat.zero_le _, rfl⟩
  next h =>
    refine ⟨?_, rfl⟩
    exact length_scanLines c.buf _ _ _ [] (Nat.pos_of_ne_zero fun hzero => h (.inl hzero))

theorem stream_compactInputBuffer (c : IpcClient) : c.compactInputBuffer.stream = c.stream := by
  unfold compactInputBuffer
  split
  · rfl
  split
  · rfl
  split <;> rfl

theorem takeUnterminatedFinalFrame_within (c : IpcClient) (h : messages.length ≤ limit) :
    (c.takeUnterminatedFinalFrame limit messages).2.length ≤ limit ∧
      (c.takeUnterminatedFinalFrame limit messages).1.stream = c.stream := by
  unfold takeUnterminatedFinalFrame
  split
  · exact ⟨h, rfl⟩
  next hmore =>
    rw [not_or, not_or] at hmore
    refine ⟨?_, stream_compactInputBuffer _⟩
    dsimp only
    split
    · exact h
    · rw [length_append, length_singleton]
      exact Nat.lt_of_not_le hmore.2.1

theorem readLoop_read (limit : Nat) : ∀ (reads : List ReadOutcome) (c : IpcClient) (bytesRead : Nat),
    (c.readLoop limit reads bytesRead).1.stream.incoming.length + (c.readLoop limit reads bytesRead).2.2 =
      c.stream.incoming.length + bytesRead
  | [], _, _ => rfl
  | outcome :: reads, c, bytesRead => by
    unfold readLoop
    split
    · cases outcome with
      | ready count =>
        dsimp only
        have htaken (n : Nat) : (c.stream.incoming.drop n).length + (bytesRead + (c.stream.incoming.take n).length) =
            c.stream.incoming.length + bytesRead := by
          rw [length_drop, length_take]
          omega
        split
        · rfl
        split
        · exact htaken _
        · exact (readLoop_read limit reads _ _).trans (htaken _)
      | wouldBlock => rfl
      | interrupted => exact readLoop_read limit reads _ bytesRead
      | failed => rfl
    · rfl

/-- The answer keeps within the budgets, and its count is what was taken off the socket. -/
structure Within (c : IpcClient) (messageBudget readByteBudget : Nat)
    (answer : IpcClient × Except IoError (List (List Byte)) × Nat) : Prop where
  messages : (received answer.2.1).length ≤ messageBudget
  bytes : answer.2.2 ≤ readByteBudget
  read : answer.1.stream.incoming.length + answer.2.2 = c.stream.incoming.length

theorem Within.of_messages {messageBudget readByteBudget bytesRead : Nat}
    (hmessages : messages.length ≤ messageBudget) (hbytes : bytesRead ≤ readByteBudget)
    (hread : c'.stream.incoming.length + bytesRead = c.stream.incoming.length) (ended : Bool) :
    Within c messageBudget readByteBudget (c', if ended then .error clientDisconnected else .ok messages, bytesRead) := by
  refine ⟨?_, hbytes, hread⟩
  cases ended with
  | true => exact Nat.zero_le _
  | false => exact hmessages

theorem readMessages_within (c : IpcClient) (messageBudget readByteBudget : Nat) :
    Within c messageBudget readByteBudget (c.readMessages messageBudget readByteBudget) := by
  unfold readMessages
  dsimp only
  have hmessageLimit : min messageBudget maxMessagesPerPoll ≤ messageBudget := Nat.min_le_left _ _
  have hbyteLimit : min readByteBudget maxReadBytesPerPoll ≤ readByteBudget := Nat.min_le_left _ _
  generalize min messageBudget maxMessagesPerPoll = limit at hmessageLimit ⊢
  generalize min readByteBudget maxReadBytesPerPoll = byteLimit at hbyteLimit ⊢
  split
  · exact ⟨Nat.zero_le _, Nat.zero_le _, rfl⟩
  obtain ⟨hlen, hstream⟩ := takeCompleteMessages_within c limit
  generalize c.takeCompleteMessages limit = taken at hlen hstream ⊢
  obtain ⟨c₁, messages⟩ := taken
  dsimp only at hlen hstream ⊢
  have hcompact : c₁.compactInputBuffer.stream = c.stream := (stream_compactInputBuffer c₁).trans hstream
  have hincoming : c₁.compactInputBuffer.stream.incoming.length + 0 = c.stream.incoming.length := by rw [hcompact, Nat.add_zero]
  split
  · exact .of_messages (hlen.trans hmessageLimit) (Nat.zero_le _) hincoming false
  split
  · obtain ⟨hfinal, hsame⟩ := takeUnterminatedFinalFrame_within c₁.compactInputBuffer hlen
    refine .of_messages (hfinal.trans hmessageLimit) (Nat.zero_le _) ?_ _
    rw [hsame]
    exact hincoming
  · have hread := readLoop_read byteLimit c₁.compactInputBuffer.stream.reads c₁.compactInputBuffer 0
    have hbytes := (readLoop_spec byteLimit c₁.compactInputBuffer.stream.reads c₁.compactInputBuffer 0 (Nat.zero_le _)).1
    generalize c₁.compactInputBuffer.readLoop byteLimit c₁.compactInputBuffer.stream.reads 0 = looped at hread hbytes ⊢
    obtain ⟨c₂, error, bytesRead⟩ := looped
    cases error with
    | some error => exact ⟨Nat.zero_le _, hbytes.trans hbyteLimit, hread.trans hincoming⟩
    | none =>
      dsimp only at hread hbytes ⊢
      obtain ⟨hmore, hsame⟩ := takeCompleteMessages_within c₂ (limit - messages.length)
      generalize c₂.takeCompleteMessages (limit - messages.length) = taken at hmore hsame ⊢
      obtain ⟨c₃, more⟩ := taken
      dsimp only at hmore hsame ⊢
      have hall : (messages ++ more).length ≤ limit := by
        rw [length_append]
        omega
      obtain ⟨hfinal, hlast⟩ := takeUnterminatedFinalFrame_within c₃.compactInputBuffer hall
      refine .of_messages (hfinal.trans hmessageLimit) (hbytes.trans hbyteLimit) ?_ _
      rw [hlast, stream_compactInputBuffer, hsame]
      exact hread.trans hincoming

/-! What is written leaves what there is to read. -/

theorem incoming_flushOut (c : IpcClient) : c.flushOut.1.stream.incoming = c.stream.incoming := by
  unfold flushOut
  generalize writeLoop c.outBuf c.stream.writes c.outStart c.stream.sent = written
  obtain ⟨writes, start, sent, error⟩ := written
  cases error <;> rfl

theorem stream_queueDueParseErrors (json : Json V) : ∀ (deferred : List (Nat × String)) (c : IpcClient),
    (queueDueParseErrors json deferred c).stream = c.stream
  | [], _ => rfl
  | (due, error) :: rest, c => by
    unfold queueDueParseErrors
    split
    · exact stream_queueDueParseErrors json rest _
    · rfl

theorem stream_releaseAbandonedReplies (json : Json V) (c : IpcClient) : (c.releaseAbandonedReplies json).stream = c.stream := by
  unfold releaseAbandonedReplies
  split
  · rfl
  · exact stream_queueDueParseErrors json _ _

theorem incoming_rejectFrame (json : Json V) (c : IpcClient) (error : String) :
    (c.rejectFrame json error).1.stream.incoming = c.stream.incoming := by
  unfold rejectFrame
  split
  · exact incoming_flushOut _
  · rfl

end IpcClient

namespace IpcServer

variable {json : Json V} {s : IpcServer} {id : Nat} {c : IpcClient}

open IpcClient

theorem takeFrame_within (json : Json V) (id : Nat) (c : IpcClient) (line : List Byte) :
    (takeFrame json id c line).2.length ≤ 1 ∧ (takeFrame json id c line).1.stream.incoming = c.stream.incoming := by
  unfold takeFrame
  split
  · exact ⟨Nat.le_refl _, rfl⟩
  · exact ⟨Nat.zero_le _, incoming_rejectFrame json _ _⟩

theorem takeFrames_within (json : Json V) (id : Nat) : ∀ (lines : List (List Byte)) (c : IpcClient),
    (takeFrames json id c lines).2.length ≤ lines.length ∧
      (takeFrames json id c lines).1.stream.incoming = c.stream.incoming
  | [], _ => ⟨Nat.le_refl _, rfl⟩
  | line :: lines, c => by
    obtain ⟨hfirst, hsame⟩ := takeFrame_within json id c line
    obtain ⟨hrest, hsame'⟩ := takeFrames_within json id lines (takeFrame json id c line).1
    refine ⟨?_, hsame'.trans hsame⟩
    show ((takeFrame json id c line).2 ++ (takeFrames json id (takeFrame json id c line).1 lines).2).length ≤ lines.length + 1
    rw [length_append]
    omega

/-- A visit keeps within what is left of the budgets. -/
structure VisitWithin (c : IpcClient) (remainingMessages remainingBytes : Nat) (v : Visit V) : Prop where
  messages : v.messagesSeen ≤ remainingMessages
  bytes : v.bytesRead ≤ remainingBytes
  returned : v.incoming.length ≤ v.messagesSeen
  read : v.client.stream.incoming.length + v.bytesRead = c.stream.incoming.length

theorem visit_within (json : Json V) (id : Nat) (c : IpcClient) (a b : Nat) : VisitWithin c a b (visit json id c a b) := by
  have hflushed : (c.releaseAbandonedReplies json).flushOut.1.stream.incoming = c.stream.incoming := by
    rw [incoming_flushOut, stream_releaseAbandonedReplies]
  unfold visit
  generalize (c.releaseAbandonedReplies json).flushOut = flushed at hflushed ⊢
  obtain ⟨c₁, error⟩ := flushed
  cases error with
  | some error => exact ⟨Nat.zero_le _, Nat.zero_le _, Nat.le_refl _, congrArg length hflushed⟩
  | none =>
    have hread := readMessages_within c₁ a b
    dsimp only at hflushed hread ⊢
    generalize c₁.readMessages a b = answer at hread ⊢
    obtain ⟨c₂, result, bytesRead⟩ := answer
    have hcount : c₂.stream.incoming.length + bytesRead = c.stream.incoming.length := by
      rw [← hflushed]
      exact hread.read
    cases result with
    | error error => exact ⟨Nat.zero_le _, hread.bytes, Nat.le_refl _, hcount⟩
    | ok lines =>
      obtain ⟨hreturned, hsame⟩ := takeFrames_within json id lines c₂
      refine ⟨hread.messages, hread.bytes, hreturned, ?_⟩
      rw [hsame, hcount]

def unread (clients : KeyMap Nat IpcClient) : Nat := clients.sumBy fun _ c => c.stream.incoming.length

theorem unread_modify {clients : KeyMap Nat IpcClient} {n : Nat} (h : clients.get? id = some c)
    (hread : c'.stream.incoming.length + n = c.stream.incoming.length) :
    unread (clients.modify id fun _ => c') + n = unread clients := by
  have hsum : unread (clients.modify id fun _ => c') + c.stream.incoming.length = unread clients + c'.stream.incoming.length :=
    KeyMap.sumBy_modify h c'
  omega

/-- A poll on its way from the clients `start`: its budgets, and what it has taken off the sockets. -/
structure Budgeted (start : KeyMap Nat IpcClient) (p : Poll V) : Prop where
  messages : p.messagesSeen ≤ maxTotalMessagesPerPoll
  bytes : p.bytesRead ≤ maxTotalReadBytesPerPoll
  returned : p.incoming.length ≤ p.messagesSeen
  read : unread p.server.clients + p.bytesRead = unread start

theorem pollLoop_budgeted (json : Json V) (clientIds : List Nat) {start : KeyMap Nat IpcClient} : ∀ (todo : List Nat) (index : Nat)
    {p : Poll V}, Budgeted start p → Budgeted start (pollLoop json clientIds todo index p)
  | [], _, _, h => h
  | id :: rest, index, p, h => by
    unfold pollLoop
    split
    · exact h
    dsimp only
    cases hget : p.server.clients.get? id with
    | none => exact pollLoop_budgeted json clientIds rest (index + 1) ⟨h.messages, h.bytes, h.returned, h.read⟩
    | some c =>
      dsimp only
      have hvisit := visit_within json id c (maxTotalMessagesPerPoll - p.messagesSeen) (maxTotalReadBytesPerPoll - p.bytesRead)
      generalize visit json id c (maxTotalMessagesPerPoll - p.messagesSeen) (maxTotalReadBytesPerPoll - p.bytesRead) = v at hvisit ⊢
      refine pollLoop_budgeted json clientIds rest (index + 1) ⟨?_, ?_, ?_, ?_⟩
      · exact (Nat.add_le_add_left hvisit.messages _).trans (Nat.add_sub_of_le h.messages).le
      · exact (Nat.add_le_add_left hvisit.bytes _).trans (Nat.add_sub_of_le h.bytes).le
      · rw [length_append]
        exact Nat.add_le_add h.returned hvisit.returned
      · show unread (p.server.clients.modify id fun _ => v.client) + (p.bytesRead + v.bytesRead) = _
        have := unread_modify hget hvisit.read
        have := h.read
        omega

theorem poll_budgeted (json : Json V) (s : IpcServer) : Budgeted s.clients (s.poll json) :=
  pollLoop_budgeted json s.pollOrder s.pollOrder 0 ⟨Nat.zero_le _, Nat.zero_le _, Nat.le_refl _, rfl⟩

/-! ## Rounds -/

def Connected (s : IpcServer) (id : Nat) : Prop := ∃ c, s.clients.get? id = some c

theorem mem_pollOrder : id ∈ s.pollOrder ↔ s.Connected id := by
  unfold pollOrder
  rw [mem_rotate, (mergeSort_perm _ _).mem_iff, KeyMap.mem_keys]
  exact Iff.rfl

theorem pairwise_pollOrder (s : IpcServer) : s.pollOrder.Pairwise (MetFirst s.nextPollClient) := by
  have hsorted : s.clients.keys.mergeSort.Pairwise (· < ·) := by
    have hle : s.clients.keys.mergeSort.Pairwise fun a b => decide (a ≤ b) = true :=
      @pairwise_mergeSort Nat (fun a b => decide (a ≤ b))
        (fun _ _ _ hab hbc => decide_eq_true (Nat.le_trans (of_decide_eq_true hab) (of_decide_eq_true hbc)))
        (fun a b => by rw [Bool.or_eq_true, decide_eq_true_eq, decide_eq_true_eq]; exact Nat.le_total a b) _
    have hnodup : s.clients.keys.mergeSort.Nodup := (mergeSort_perm _ _).nodup_iff.2 s.clients.nodup
    refine (hle.and hnodup).imp fun hab => ?_
    exact Nat.lt_of_le_of_ne (of_decide_eq_true hab.1) hab.2
  unfold pollOrder
  dsimp only
  generalize s.clients.keys.mergeSort = ids at hsorted ⊢
  have hcut := pairwise_metFirst hsorted s.nextPollClient
  have hids : ids.takeWhile (· < s.nextPollClient) ++ ids.dropWhile (· < s.nextPollClient) = ids := takeWhile_append_dropWhile
  generalize ids.takeWhile (· < s.nextPollClient) = late at hcut hids ⊢
  generalize ids.dropWhile (· < s.nextPollClient) = early at hcut hids
  subst hids
  split
  next hall =>
    rw [length_append, Nat.left_eq_add, length_eq_zero_iff] at hall
    subst hall
    rw [append_nil, rotate_zero]
    exact hcut
  next =>
    rw [rotate_append_length_eq]
    exact hcut

/-- The clients a poll comes to are the first of its order, and its cursor is at the one after them. -/
theorem pollLoop_visits (json : Json V) (clientIds : List Nat) : ∀ (todo : List Nat) (index : Nat) {p : Poll V},
    (∀ id ∈ todo, p.server.Connected id) → ∃ seen, seen <+: todo ∧
      (pollLoop json clientIds todo index p).visited = p.visited ++ seen ∧
      (pollLoop json clientIds todo index p).server.nextPollClient =
        (if seen = [] then p.server.nextPollClient else clientIds.getD ((index + seen.length) % clientIds.length) 0) ∧
      (p.messagesSeen ≠ maxTotalMessagesPerPoll → p.bytesRead ≠ maxTotalReadBytesPerPoll → todo ≠ [] → seen ≠ [])
  | [], _, p, _ => ⟨[], prefix_refl _, (append_nil _).symm, rfl, fun _ _ h => absurd rfl h⟩
  | id :: rest, index, p, h => by
    unfold pollLoop
    split
    next hspent =>
      refine ⟨[], List.nil_prefix, (append_nil _).symm, rfl, fun hmessages hbytes _ => ?_⟩
      exact absurd hspent (not_or.2 ⟨hmessages, hbytes⟩)
    · dsimp only
      obtain ⟨c, hc⟩ := h id mem_cons_self
      rw [hc]
      dsimp only
      generalize visit json id c (maxTotalMessagesPerPoll - p.messagesSeen) (maxTotalReadBytesPerPoll - p.bytesRead) = v
      obtain ⟨seen, hseen, hvisited, hnext, -⟩ := pollLoop_visits json clientIds rest (index + 1)
        (p := { server := { clients := p.server.clients.modify id fun _ => v.client, nextId := p.server.nextId,
                            nextPollClient := clientIds.getD ((index + 1) % clientIds.length) 0 }
                messagesSeen := p.messagesSeen + v.messagesSeen, bytesRead := p.bytesRead + v.bytesRead
                incoming := p.incoming ++ v.incoming, dead := if v.dead then p.dead ++ [id] else p.dead
                visited := p.visited ++ [id] })
        (by
          intro other hother
          obtain ⟨d, hd⟩ := h other (mem_cons_of_mem id hother)
          exact KeyMap.mem_keys.1 (by rw [KeyMap.keys_modify]; exact KeyMap.mem_keys.2 ⟨d, hd⟩))
      refine ⟨id :: seen, cons_prefix_cons.2 ⟨rfl, hseen⟩, ?_, ?_, fun _ _ _ => cons_ne_nil _ _⟩
      · rw [hvisited, append_assoc]
        rfl
      · rw [hnext, if_neg (cons_ne_nil id seen), length_cons, Nat.add_comm seen.length, ← Nat.add_assoc]
        split
        next hnil => rw [hnil]; rfl
        · rfl

def visits (json : Json V) (s : IpcServer) : Call V → List Nat
  | .pollClients => (s.poll json).visited
  | .acceptConnections _ | .respond _ _ | .subscribe _ _ | .broadcast _ => []

theorem nextPollClient_acceptConnections : ∀ (n : Nat) (pending : List Accept) (s : IpcServer),
    (acceptConnections n pending s).nextPollClient = s.nextPollClient
  | 0, _, _ => rfl
  | _ + 1, [], _ => rfl
  | _ + 1, .failed :: _, _ => rfl
  | n + 1, .connection incoming reads writes setup :: rest, s => by
    unfold acceptConnections
    split
    · exact nextPollClient_acceptConnections n rest s
    · exact nextPollClient_acceptConnections n rest _

theorem nextPollClient_call {call : Call V} (h : call ≠ .pollClients) : (s.call json call).1.nextPollClient = s.nextPollClient := by
  cases call with
  | acceptConnections pending => exact nextPollClient_acceptConnections maxAcceptsPerPoll pending s
  | pollClients => exact absurd rfl h
  | respond clientId resp =>
    unfold IpcServer.call respond
    dsimp only
    split
    · rfl
    · split <;> rfl
  | subscribe | broadcast => rfl

def callRound (json : Json V) (s : IpcServer) (call : Call V) : SweepRound Nat where
  start := s.nextPollClient
  members := s.pollOrder
  visited := s.visits json call
  stop := (s.call json call).1.nextPollClient

theorem poll_visits (json : Json V) (s : IpcServer) : ∃ seen, seen <+: s.pollOrder ∧ (s.poll json).visited = seen ∧
    (s.poll json).server.nextPollClient =
      (if seen = [] then s.nextPollClient else s.pollOrder.getD (seen.length % s.pollOrder.length) 0) ∧
    (s.pollOrder ≠ [] → seen ≠ []) := by
  obtain ⟨seen, hseen, hvisited, hnext, hsome⟩ := pollLoop_visits json s.pollOrder s.pollOrder 0 (p := ⟨s, 0, 0, [], [], []⟩)
    fun id hid => mem_pollOrder.1 hid
  rw [Nat.zero_add] at hnext
  have hmessages : 0 ≠ maxTotalMessagesPerPoll := by decide
  have hbytes : 0 ≠ maxTotalReadBytesPerPoll := by decide
  exact ⟨seen, hseen, hvisited, hnext, hsome hmessages hbytes⟩

theorem callRound_legal (json : Json V) (s : IpcServer) (call : Call V) : (s.callRound json call).Legal := by
  by_cases hpoll : call = .pollClients
  · subst hpoll
    obtain ⟨seen, hseen, hvisited, hnext, -⟩ := s.poll_visits json
    refine ⟨s.pairwise_pollOrder, ?_, ?_⟩
    · show (s.poll json).visited <+: s.pollOrder
      rwa [hvisited]
    · show (s.poll json).visited = [] ∧ (s.poll json).server.nextPollClient = s.nextPollClient ∨
        (s.poll json).visited ≠ [] ∧
          s.pollOrder[(s.poll json).visited.length % s.pollOrder.length]? = some (s.poll json).server.nextPollClient
      rw [hvisited, hnext]
      split
      next hnil => exact .inl ⟨hnil, rfl⟩
      next hcons =>
        have hpos : 0 < s.pollOrder.length := (length_pos_of_ne_nil hcons).trans_le hseen.length_le
        rw [getD_eq_getElem?_getD, getElem?_eq_getElem (Nat.mod_lt _ hpos), getD_some]
        exact .inr ⟨hcons, rfl⟩
  · have hnone : s.visits json call = [] := by
      cases call with
      | pollClients => exact absurd rfl hpoll
      | acceptConnections | respond | subscribe | broadcast => rfl
    refine ⟨s.pairwise_pollOrder, ?_, .inl ⟨hnone, nextPollClient_call hpoll⟩⟩
    show s.visits json call <+: s.pollOrder
    rw [hnone]
    exact List.nil_prefix

/-! ## Runs -/

def run (json : Json V) : IpcServer → List (Call V) → IpcServer
  | s, [] => s
  | s, call :: rest => run json (s.call json call).1 rest

def visitsAlong (json : Json V) : IpcServer → List (Call V) → List Nat
  | _, [] => []
  | s, call :: rest => s.visits json call ++ visitsAlong json (s.call json call).1 rest

/-- The client is there before, between and after the calls. -/
def ConnectedAlong (json : Json V) (id : Nat) : IpcServer → List (Call V) → Prop
  | s, [] => s.Connected id
  | s, call :: rest => s.Connected id ∧ ConnectedAlong json id (s.call json call).1 rest

def rounds (json : Json V) : IpcServer → List (Call V) → List (SweepRound Nat)
  | _, [] => []
  | s, call :: rest => s.callRound json call :: rounds json (s.call json call).1 rest

theorem sweep_rounds (json : Json V) : ∀ (calls : List (Call V)) (s : IpcServer),
    Sweep s.nextPollClient (s.rounds json calls) (s.run json calls).nextPollClient
  | [], s => .nil s.nextPollClient
  | call :: rest, s => .cons (s.callRound_legal json call) (sweep_rounds json rest _)

theorem flatMap_rounds (json : Json V) : ∀ (calls : List (Call V)) (s : IpcServer),
    (s.rounds json calls).flatMap SweepRound.visited = s.visitsAlong json calls
  | [], _ => rfl
  | call :: rest, s => by
    rw [rounds, flatMap_cons, flatMap_rounds json rest]
    rfl

theorem ConnectedAlong.mem_rounds : ∀ {calls : List (Call V)} {s : IpcServer}, s.ConnectedAlong json id calls →
    (∀ r ∈ s.rounds json calls, id ∈ r.members) ∧ (s.run json calls).Connected id
  | [], _, h => ⟨fun _ hr => absurd hr not_mem_nil, h⟩
  | _ :: _, _, h => by
    obtain ⟨hrest, hlast⟩ := h.2.mem_rounds
    exact ⟨forall_mem_cons.2 ⟨mem_pollOrder.2 h.1, hrest⟩, hlast⟩

/-- Polls are round-robin: they keep within their budgets and come to nobody twice, and between two visits of one client
every other client that stays is visited. -/
theorem polls_round_robin (json : Json V) (s : IpcServer) :
    (s.poll json).messagesSeen ≤ maxTotalMessagesPerPoll ∧ (s.pollClients json).2.length ≤ maxTotalMessagesPerPoll ∧
      unread s.clients ≤ unread (s.poll json).server.clients + maxTotalReadBytesPerPoll ∧
      ((∃ id, s.Connected id) → (s.poll json).visited ≠ []) ∧ (s.poll json).visited.Nodup ∧
      ∀ (calls : List (Call V)) (a b : Nat) (u w u' w' : List Nat), b ≠ a → (s.poll json).visited = u ++ a :: w →
        ((s.run json (.pollClients :: calls)).poll json).visited = u' ++ a :: w' →
        s.ConnectedAlong json b (.pollClients :: calls) →
        b ∈ w ++ ((s.pollClients json).1.visitsAlong json calls ++ u') := by
  obtain ⟨seen, hseen, hvisited, -, hsome⟩ := s.poll_visits json
  have hbudget := s.poll_budgeted json
  refine ⟨hbudget.messages, hbudget.returned.trans hbudget.messages, ?_, ?_, ?_, ?_⟩
  · rw [← hbudget.read]
    exact Nat.add_le_add_left hbudget.bytes _
  · rintro ⟨id, hid⟩
    rw [hvisited]
    exact hsome (ne_nil_of_mem (mem_pollOrder.2 hid))
  · rw [hvisited]
    exact hseen.sublist.nodup s.nodup_pollOrder
  · intro calls a b u w u' w' hne hvisit hagain hconnected
    obtain ⟨hrounds, hlast⟩ := hconnected.2.mem_rounds
    rw [← flatMap_rounds]
    have hsweep : Sweep (s.callRound json .pollClients).stop ((s.pollClients json).1.rounds json calls)
        ((s.run json (.pollClients :: calls)).callRound json .pollClients).start := sweep_rounds json calls _
    exact hsweep.fair (callRound_legal ..) (callRound_legal ..) hvisit hagain hne (mem_pollOrder.2 hconnected.1) hrounds
      (mem_pollOrder.2 hlast)

theorem poll_two (json : Json V) (hkeys : s.clients.keys = [1, 2]) (hnext : s.nextPollClient = 1) :
    s.poll json = pollLoop json [1, 2] [1, 2] 0 ⟨s, 0, 0, [], [], []⟩ := by
  have horder : s.pollOrder = [1, 2] := by
    unfold pollOrder
    rw [hkeys, hnext, mergeSort_of_pairwise (by decide)]
    rfl
  rw [poll, horder]

/-- Two silent clients, polled twice. -/
theorem polls_round_robin_two :
    let json : Json Nat := ⟨fun _ => .error "bad", fun _ => [], fun _ => []⟩
    let s := acceptConnections 2 [.connection [] [.wouldBlock] [] true, .connection [] [.wouldBlock] [] true] new
    (s.poll json).visited = [] ++ 1 :: [2] ∧ 2 ∈ [2] ++ ((s.pollClients json).1.visitsAlong json [] ++ []) := by
  intro json s
  have hfirst := poll_two json (s := s) (by decide +kernel) (by decide +kernel)
  have hvisit : (s.poll json).visited = [] ++ 1 :: [2] := by
    rw [hfirst]
    decide +kernel
  let t := (pollLoop json [1, 2] [1, 2] 0 ⟨s, 0, 0, [], [], []⟩).server.removeAll []
  have ht : (s.call json .pollClients).1 = t := by
    show (s.poll json).server.removeAll (s.poll json).dead = t
    rw [hfirst]
    rfl
  have hagain : ((s.run json [.pollClients]).poll json).visited = [] ++ 1 :: [2] := by
    show ((s.call json .pollClients).1.poll json).visited = _
    rw [ht, poll_two json (by decide +kernel) (by decide +kernel)]
    decide +kernel
  have hconnected : s.ConnectedAlong json 2 [.pollClients] := by
    refine ⟨isSome_iff_exists.1 (by decide +kernel), ?_⟩
    rw [ht]
    exact isSome_iff_exists.1 (by decide +kernel)
  exact ⟨hvisit, (polls_round_robin json s).2.2.2.2.2 [] 1 2 [] [2] [] [2] (by decide) hvisit hagain hconnected⟩

end IpcServer

end Jwm.Ipc
