/-
The control server (`ipc_server.rs`): connections, round-robin polls under a global budget, replies, subscriptions
and broadcasts. What the readiness hub is told is left out.
-/
import Jwm.Data.KeyMap
import Jwm.Ipc.IpcClient
import Mathlib.Data.List.Rotate

namespace Jwm.Ipc

open List KeyMap

variable {V : Type}

/-- A message as the caller of a poll gets it. -/
inductive IncomingIpc (V : Type) where
  | command (clientId : Nat) (name : String) (args : V)
  | query (clientId : Nat) (name : String) (args : V)
  | subscribe (clientId : Nat) (topics : List String)
deriving DecidableEq

namespace IncomingIpc

def clientId : IncomingIpc V → Nat
  | command id _ _ | query id _ _ | subscribe id _ => id

def ofMessage (id : Nat) : IpcMessage V → IncomingIpc V
  | .command name args => command id name args
  | .query name args => query id name args
  | .subscribe topics => subscribe id topics

@[simp] theorem clientId_ofMessage (id : Nat) (message : IpcMessage V) : (ofMessage id message).clientId = id := by
  cases message <;> rfl

end IncomingIpc

/-! ## Subscriptions -/

def maxSubscriptionTopics : Nat := 64
def maxSubscriptionTopicLen : Nat := 128

/-- `char::is_whitespace`. -/
def isWhitespace (c : Char) : Bool :=
  let n := c.toNat
  (9 ≤ n && n ≤ 13) || n = 0x20 || n = 0x85 || n = 0xa0 || n = 0x1680 || (0x2000 ≤ n && n ≤ 0x200a) || n = 0x2028 || n = 0x2029 ||
    n = 0x202f || n = 0x205f || n = 0x3000

/-- `str::trim`. -/
def trim (text : String) : String :=
  String.ofList ((text.toList.dropWhile isWhitespace).reverse.dropWhile isWhitespace).reverse

def normalizeSubscriptionTopic (topic : String) : String :=
  if topic = "workspace" then "tag"
  else if "workspace/".toList.isPrefixOf topic.toList then "tag/" ++ String.ofList (topic.toList.drop "workspace/".length)
  else if topic = "bar" then "monitor/bar"
  else topic

/-- `normalize_subscriptions`: the topics it stores. -/
def normalizeSubscriptions (topics : List String) : List String :=
  topics.foldl (fun subscribed topic =>
    let topic := normalizeSubscriptionTopic (trim topic)
    if topic.isEmpty ∨ topic.utf8ByteSize > maxSubscriptionTopicLen ∨ topic ∈ subscribed ∨
      subscribed.length = maxSubscriptionTopics then subscribed
    else subscribed ++ [topic]) []

/-! ## The server -/

def maxTotalReadBytesPerPoll : Nat := 256 * 1024
def maxTotalMessagesPerPoll : Nat := 256
def maxClients : Nat := 128
def maxAcceptsPerPoll : Nat := 32

structure IpcServer where
  clients : KeyMap Nat IpcClient
  nextId : Nat
  nextPollClient : Nat

namespace IpcServer

def new : IpcServer := ⟨KeyMap.empty, 1, 1⟩

/-- What the next `accept` of the listener does: a peer, and what its socket will do, whose setup may fail. -/
inductive Accept where
  | connection (incoming : List Byte) (reads : List ReadOutcome) (writes : List WriteOutcome) (setup : Bool)
  | failed

/-- `accept_connections`, with the number of accepts left. Without a connection the listener blocks. -/
def acceptConnections : Nat → List Accept → IpcServer → IpcServer
  | 0, _, s | _, [], s => s
  | _ + 1, .failed :: _, s => s
  | n + 1, .connection incoming reads writes setup :: rest, s =>
    if s.clients.entries.length ≥ maxClients then acceptConnections n rest s
    else
      let stream := ⟨incoming, reads, [], writes⟩
      let clients := if setup then s.clients.insert s.nextId (IpcClient.new stream) else s.clients
      acceptConnections n rest { s with clients := clients, nextId := s.nextId + 1 }

/-- A frame of client `id`: a message for the caller, or an error for the client. -/
def takeFrame (json : Json V) (id : Nat) (c : IpcClient) (line : List Byte) : IpcClient × List (IncomingIpc V) :=
  let c := { c with frames := c.frames ++ [line] }
  match json.parse line with
  | .ok message => ({ c with deliveredFrames := c.deliveredFrames + 1 }, [IncomingIpc.ofMessage id message])
  | .error error => ((c.rejectFrame json ("parse error: " ++ error)).1, [])

def takeFrames (json : Json V) (id : Nat) : IpcClient → List (List Byte) → IpcClient × List (IncomingIpc V)
  | c, [] => (c, [])
  | c, line :: lines =>
    let (c, first) := takeFrame json id c line
    let (c, rest) := takeFrames json id c lines
    (c, first ++ rest)

/-- What a poll got from one client. -/
structure Visit (V : Type) where
  client : IpcClient
  incoming : List (IncomingIpc V)
  messagesSeen : Nat
  bytesRead : Nat
  dead : Bool

def visit (json : Json V) (id : Nat) (c : IpcClient) (remainingMessages remainingBytes : Nat) : Visit V :=
  match (c.releaseAbandonedReplies json).flushOut with
  | (c, some _) => ⟨c, [], 0, 0, true⟩
  | (c, none) =>
    match c.readMessages remainingMessages remainingBytes with
    | (c, .ok lines, bytesRead) =>
      let (c, incoming) := takeFrames json id c lines
      ⟨c, incoming, lines.length, bytesRead, false⟩
    -- replies still queued keep a client whose requests have ended
    | (c, .error error, bytesRead) =>
      ⟨c, [], 0, bytesRead, !(decide (error = IpcClient.clientDisconnected) && c.readClosed && c.hasPendingOutput)⟩

/-- A poll on its way; `visited` records the clients it came to. -/
structure Poll (V : Type) where
  server : IpcServer
  messagesSeen : Nat
  bytesRead : Nat
  incoming : List (IncomingIpc V)
  dead : List Nat
  visited : List Nat

/-- The loop of `poll_clients` from position `index` of `clientIds` on. -/
def pollLoop (json : Json V) (clientIds : List Nat) : List Nat → Nat → Poll V → Poll V
  | [], _, p => p
  | id :: rest, index, p =>
    if p.messagesSeen = maxTotalMessagesPerPoll ∨ p.bytesRead = maxTotalReadBytesPerPoll then p
    else
      let server := { p.server with nextPollClient := clientIds.getD ((index + 1) % clientIds.length) 0 }
      match server.clients.get? id with
      | none => pollLoop json clientIds rest (index + 1) { p with server := server }
      | some c =>
        let v := visit json id c (maxTotalMessagesPerPoll - p.messagesSeen) (maxTotalReadBytesPerPoll - p.bytesRead)
        pollLoop json clientIds rest (index + 1)
          { server := { server with clients := server.clients.modify id fun _ => v.client }
            messagesSeen := p.messagesSeen + v.messagesSeen
            bytesRead := p.bytesRead + v.bytesRead
            incoming := p.incoming ++ v.incoming
            dead := if v.dead then p.dead ++ [id] else p.dead
            visited := p.visited ++ [id] }

def removeAll (s : IpcServer) (ids : List Nat) : IpcServer := { s with clients := ids.foldl KeyMap.remove s.clients }

/-- The order of a poll: the ids in increasing order, from `nextPollClient` on. -/
def pollOrder (s : IpcServer) : List Nat :=
  let clientIds := s.clients.keys.mergeSort
  let start := (clientIds.takeWhile fun id => id < s.nextPollClient).length
  clientIds.rotate (if start = clientIds.length then 0 else start)

/-- `poll_clients` before it removes the dead. -/
def poll (json : Json V) (s : IpcServer) : Poll V := pollLoop json s.pollOrder s.pollOrder 0 ⟨s, 0, 0, [], [], []⟩

def pollClients (json : Json V) (s : IpcServer) : IpcServer × List (IncomingIpc V) :=
  let p := s.poll json
  (p.server.removeAll p.dead, p.incoming)

def respond (json : Json V) (s : IpcServer) (clientId : Nat) (resp : IpcResponse V) : IpcServer :=
  match s.clients.get? clientId with
  | none => s
  | some c =>
    match c.sendResponse json resp with
    | (_, some _) => { s with clients := s.clients.remove clientId }
    | (c, none) => { s with clients := s.clients.modify clientId fun _ => c }

def subscribe (s : IpcServer) (clientId : Nat) (topics : List String) : IpcServer :=
  { s with clients := s.clients.modify clientId fun c => { c with subscriptions := normalizeSubscriptions topics } }

/-- The loop of `broadcast`: the clients, and those to which the event could not be sent. -/
def broadcastLoop (json : Json V) (event : IpcEvent V) : List Nat → KeyMap Nat IpcClient → List Nat → KeyMap Nat IpcClient × List Nat
  | [], clients, dead => (clients, dead)
  | id :: rest, clients, dead =>
    match clients.get? id with
    | none => broadcastLoop json event rest clients dead
    | some c =>
      if c.isSubscribed event.event then
        let (c, error) := c.sendEvent json event
        broadcastLoop json event rest (clients.modify id fun _ => c) (if error.isSome then dead ++ [id] else dead)
      else broadcastLoop json event rest clients dead

def broadcast (json : Json V) (s : IpcServer) (event : IpcEvent V) : IpcServer :=
  let (clients, dead) := broadcastLoop json event s.clients.keys s.clients []
  { s with clients := clients }.removeAll dead

/-! ## Calls -/

inductive Call (V : Type) where
  | acceptConnections (pending : List Accept)
  | pollClients
  | respond (clientId : Nat) (resp : IpcResponse V)
  | subscribe (clientId : Nat) (topics : List String)
  | broadcast (event : IpcEvent V)

/-- The server after a call, and the messages it returned. -/
def call (json : Json V) (s : IpcServer) : Call V → IpcServer × List (IncomingIpc V)
  | .acceptConnections pending => (acceptConnections maxAcceptsPerPoll pending s, [])
  | .pollClients => s.pollClients json
  | .respond clientId resp => (s.respond json clientId resp, [])
  | .subscribe clientId topics => (s.subscribe clientId topics, [])
  | .broadcast event => (s.broadcast json event, [])

/-! ## What a call does to a client -/

/-- What becomes of client `id` in a call that leaves it connected. -/
inductive Acts (json : Json V) (id : Nat) (c : IpcClient) : Call V → IpcClient → Prop where
  | same {call : Call V} (other : ∀ resp, call ≠ .respond id resp) : Acts json id c call c
  | visited (a b : Nat) : Acts json id c .pollClients (visit json id c a b).client
  | responded (resp : IpcResponse V) : Acts json id c (.respond id resp) (c.sendResponse json resp).1
  | subscribed (topics : List String) :
    Acts json id c (.subscribe id topics) { c with subscriptions := normalizeSubscriptions topics }
  | received (event : IpcEvent V) : Acts json id c (.broadcast event) (c.sendEvent json event).1

variable {json : Json V} {s : IpcServer} {id : Nat} {c : IpcClient}

theorem get?_removeAll : ∀ (ids : List Nat) {s : IpcServer}, (s.removeAll ids).clients.get? id = some c → s.clients.get? id = some c
  | [], _, h => h
  | first :: rest, s, h => by
    have hrest : (({ s with clients := s.clients.remove first } : IpcServer).removeAll rest).clients.get? id = some c := h
    have := get?_removeAll rest hrest
    rw [get?_remove] at this
    split at this
    · cases this
    · exact this

theorem acceptConnections_nextId : ∀ (n : Nat) (pending : List Accept) (s : IpcServer),
    s.nextId ≤ (acceptConnections n pending s).nextId
  | 0, _, s => Nat.le_refl _
  | n + 1, [], s => Nat.le_refl _
  | n + 1, .failed :: _, s => Nat.le_refl _
  | n + 1, .connection incoming reads writes setup :: rest, s => by
    unfold acceptConnections
    split
    · exact acceptConnections_nextId n rest s
    · exact Nat.le_of_succ_le (acceptConnections_nextId n rest ⟨_, s.nextId + 1, s.nextPollClient⟩)

theorem acceptConnections_client : ∀ (n : Nat) (pending : List Accept) {s : IpcServer},
    (acceptConnections n pending s).clients.get? id = some c → s.clients.get? id = some c ∨
      (s.nextId ≤ id ∧ id < (acceptConnections n pending s).nextId ∧
        ∃ incoming reads writes, c = IpcClient.new ⟨incoming, reads, [], writes⟩)
  | 0, _, s, h => .inl h
  | n + 1, [], s, h => .inl h
  | n + 1, .failed :: _, s, h => .inl h
  | n + 1, .connection incoming reads writes setup :: rest, s, h => by
    unfold acceptConnections at h ⊢
    split at h
    next hfull =>
      rw [if_pos hfull]
      exact acceptConnections_client n rest h
    next hfull =>
      rw [if_neg hfull]
      rcases acceptConnections_client n rest h with hold | ⟨hfirst, hlast, hnew⟩
      · split at hold
        · rw [get?_insert] at hold
          split at hold
          next hid =>
            cases hold
            refine .inr ⟨Nat.le_of_eq hid.symm, ?_, _, _, _, rfl⟩
            rw [hid]
            exact acceptConnections_nextId n rest ⟨_, s.nextId + 1, s.nextPollClient⟩
          · exact .inl hold
        · exact .inl hold
      · exact .inr ⟨Nat.le_of_succ_le hfirst, hlast, hnew⟩

theorem broadcastLoop_client (event : IpcEvent V) : ∀ (ids : List Nat) {clients : KeyMap Nat IpcClient} {dead : List Nat}, ids.Nodup →
    (broadcastLoop json event ids clients dead).1.get? id = some c →
    clients.get? id = some c ∨ id ∈ ids ∧ ∃ before, clients.get? id = some before ∧ c = (before.sendEvent json event).1
  | [], _, _, _, h => .inl h
  | first :: rest, clients, dead, hnodup, h => by
    obtain ⟨hfirst, hrest⟩ := nodup_cons.1 hnodup
    have weaken : ∀ {clients : KeyMap Nat IpcClient},
        (clients.get? id = some c ∨ id ∈ rest ∧ ∃ before, clients.get? id = some before ∧ c = (before.sendEvent json event).1) →
        clients.get? id = some c ∨ id ∈ first :: rest ∧ ∃ before, clients.get? id = some before ∧ c = (before.sendEvent json event).1 :=
      fun h => h.imp_right (And.imp_left (mem_cons_of_mem first))
    unfold broadcastLoop at h
    cases hget : clients.get? first with
    | none =>
      rw [hget] at h
      exact weaken (broadcastLoop_client event rest hrest h)
    | some before =>
      rw [hget] at h
      dsimp only at h
      split at h
      · rcases broadcastLoop_client event rest hrest h with hsame | ⟨hmem, later, hlater, hc⟩
        · rw [get?_modify] at hsame
          split at hsame
          next hid =>
            rw [hid, hget] at hsame
            cases hsame
            exact .inr ⟨hid ▸ mem_cons_self, before, hid ▸ hget, rfl⟩
          · exact .inl hsame
        · rw [get?_modify, if_neg (by rintro rfl; exact hfirst hmem)] at hlater
          exact .inr ⟨mem_cons_of_mem first hmem, later, hlater, hc⟩
      · exact weaken (broadcastLoop_client event rest hrest h)

def ofClient (id : Nat) (messages : List (IncomingIpc V)) : List (IncomingIpc V) := messages.filter fun m => m.clientId = id

theorem ofClient_append (id : Nat) (xs ys : List (IncomingIpc V)) : ofClient id (xs ++ ys) = ofClient id xs ++ ofClient id ys :=
  filter_append xs ys

theorem takeFrames_clientId : ∀ (lines : List (List Byte)) {c : IpcClient} {m : IncomingIpc V},
    m ∈ (takeFrames json id c lines).2 → m.clientId = id
  | line :: lines, c, m, h => by
    rcases mem_append.1 (show m ∈ (takeFrame json id c line).2 ++ (takeFrames json id _ lines).2 from h) with hfirst | hrest
    · unfold takeFrame at hfirst
      split at hfirst
      · rw [mem_singleton.1 hfirst]
        exact IncomingIpc.clientId_ofMessage id _
      · cases hfirst
    · exact takeFrames_clientId lines hrest

theorem visit_clientId (a b : Nat) {m : IncomingIpc V} (h : m ∈ (visit json id c a b).incoming) : m.clientId = id := by
  unfold visit at h
  split at h
  · cases h
  · split at h
    · exact takeFrames_clientId _ h
    · cases h

variable {messages : List (IncomingIpc V)}

theorem ofClient_self (h : ∀ m ∈ messages, m.clientId = id) : ofClient id messages = messages :=
  filter_eq_self.2 fun m hm => decide_eq_true (h m hm)

theorem ofClient_other {other : Nat} (h : ∀ m ∈ messages, m.clientId = other) (hne : id ≠ other) : ofClient id messages = [] :=
  filter_eq_nil_iff.2 fun m hm hid => hne ((of_decide_eq_true hid).symm.trans (h m hm))

/-- A poll on its way from `s`: the clients it has not come to are as they were. -/
structure Polling (json : Json V) (s : IpcServer) (todo : List Nat) (p : Poll V) : Prop where
  ahead : ∀ id ∈ todo, id ∉ p.visited
  nextId : p.server.nextId = s.nextId
  known : ∀ m ∈ p.incoming, ∃ c, s.clients.get? m.clientId = some c
  client : ∀ id c', p.server.clients.get? id = some c' → ∃ c, s.clients.get? id = some c ∧
    ((id ∉ p.visited ∧ c' = c ∧ ofClient id p.incoming = []) ∨
      (id ∈ p.visited ∧ ∃ a b, c' = (visit json id c a b).client ∧ ofClient id p.incoming = (visit json id c a b).incoming))

theorem pollLoop_spec (clientIds : List Nat) : ∀ (todo : List Nat) (index : Nat) {p : Poll V}, todo.Nodup → Polling json s todo p →
    Polling json s [] (pollLoop json clientIds todo index p)
  | [], _, _, _, h => h
  | id :: rest, index, p, hnodup, h => by
    obtain ⟨hid, hrest⟩ := nodup_cons.1 hnodup
    unfold pollLoop
    split
    · exact ⟨nofun, h.nextId, h.known, h.client⟩
    dsimp only
    cases hget : p.server.clients.get? id with
    | none =>
      exact pollLoop_spec clientIds rest (index + 1) hrest
        ⟨fun i hi => h.ahead i (mem_cons_of_mem id hi), h.nextId, h.known, h.client⟩
    | some c' =>
      obtain ⟨c, hc, hcase⟩ := h.client id c' hget
      have hfresh := h.ahead id mem_cons_self
      obtain ⟨_, rfl, hincoming⟩ := hcase.resolve_right fun hvisited => hfresh hvisited.1
      generalize ha : maxTotalMessagesPerPoll - p.messagesSeen = a
      generalize hb : maxTotalReadBytesPerPoll - p.bytesRead = b
      refine pollLoop_spec clientIds rest (index + 1) hrest ⟨?_, h.nextId, ?_, ?_⟩
      · intro i hi hvisited
        rcases mem_append.1 hvisited with hold | hnew
        · exact h.ahead i (mem_cons_of_mem id hi) hold
        · rw [mem_singleton.1 hnew] at hi
          exact hid hi
      · intro m hm
        rcases mem_append.1 hm with hold | hnew
        · exact h.known m hold
        · exact ⟨c', by rw [visit_clientId a b hnew]; exact hc⟩
      · intro i d hd
        rw [get?_modify] at hd
        split at hd
        next hi =>
          subst hi
          rw [hget] at hd
          cases hd
          refine ⟨c', hc, .inr ⟨mem_append_right _ (mem_singleton_self i), a, b, rfl, ?_⟩⟩
          rw [ofClient_append, hincoming, nil_append]
          exact ofClient_self fun m hm => visit_clientId a b hm
        next hi =>
          obtain ⟨before, hbefore, hcase⟩ := h.client i d hd
          have hnone : ofClient i (visit json id c' a b).incoming = [] := ofClient_other (fun m hm => visit_clientId a b hm) hi
          refine ⟨before, hbefore, ?_⟩
          rw [ofClient_append, hnone, append_nil]
          refine hcase.imp (fun hold => ⟨?_, hold.2⟩) (fun hold => ⟨mem_append_left _ hold.1, hold.2⟩)
          intro hvisited
          rcases mem_append.1 hvisited with hmem | hmem
          · exact hold.1 hmem
          · exact hi (mem_singleton.1 hmem)

theorem nodup_pollOrder (s : IpcServer) : s.pollOrder.Nodup := by
  exact nodup_rotate.2 ((mergeSort_perm _ _).nodup_iff.2 s.clients.nodup)

theorem poll_spec (json : Json V) (s : IpcServer) : Polling json s [] (s.poll json) :=
  pollLoop_spec s.pollOrder s.pollOrder 0 s.nodup_pollOrder
    ⟨fun _ _ => not_mem_nil, rfl, nofun, fun _ c' hc' => ⟨c', hc', .inl ⟨not_mem_nil, rfl, rfl⟩⟩⟩

theorem call_client (call : Call V) (h : (s.call json call).1.clients.get? id = some c) :
    (s.nextId ≤ id ∧ id < (s.call json call).1.nextId ∧ ∃ incoming reads writes, c = IpcClient.new ⟨incoming, reads, [], writes⟩) ∨
      ∃ before, s.clients.get? id = some before ∧ Acts json id before call c := by
  cases call with
  | acceptConnections pending =>
    rcases acceptConnections_client maxAcceptsPerPoll pending h with hold | hnew
    · exact .inr ⟨c, hold, .same (by rintro _ ⟨⟩)⟩
    · exact .inl hnew
  | pollClients =>
    obtain ⟨before, hbefore, hcase⟩ := (poll_spec json s).client id c (get?_removeAll _ h)
    rcases hcase with ⟨_, rfl, _⟩ | ⟨_, a, b, rfl, _⟩
    · exact .inr ⟨_, hbefore, .same (by rintro _ ⟨⟩)⟩
    · exact .inr ⟨before, hbefore, .visited a b⟩
  | respond clientId resp =>
    unfold IpcServer.call respond at h
    dsimp only at h
    cases hget : s.clients.get? clientId with
    | none =>
      rw [hget] at h
      refine .inr ⟨c, h, .same ?_⟩
      rintro _ ⟨⟩
      rw [hget] at h
      cases h
    | some before =>
      rw [hget] at h
      dsimp only at h
      split at h
      · rw [get?_remove] at h
        split at h
        · cases h
        next hid => exact .inr ⟨c, h, .same fun _ heq => hid (Call.respond.inj heq).1.symm⟩
      next hsent =>
        rw [get?_modify] at h
        split at h
        next hid =>
          subst hid
          rw [hget] at h
          cases h
          refine .inr ⟨before, hget, ?_⟩
          have hact : Acts json id before (.respond id resp) (before.sendResponse json resp).1 := .responded resp
          rwa [hsent] at hact
        next hid => exact .inr ⟨c, h, .same fun _ heq => hid (Call.respond.inj heq).1.symm⟩
  | subscribe clientId topics =>
    rw [IpcServer.call, subscribe, get?_modify] at h
    split at h
    next hid =>
      subst hid
      obtain ⟨before, hbefore, rfl⟩ := Option.map_eq_some_iff.1 h
      exact .inr ⟨before, hbefore, .subscribed topics⟩
    · exact .inr ⟨c, h, .same (by rintro _ ⟨⟩)⟩
  | broadcast event =>
    rcases broadcastLoop_client event s.clients.keys s.clients.nodup (get?_removeAll _ h) with hold | ⟨_, before, hbefore, rfl⟩
    · exact .inr ⟨c, hold, .same (by rintro _ ⟨⟩)⟩
    · exact .inr ⟨before, hbefore, .received event⟩

theorem call_nextId (json : Json V) (s : IpcServer) (call : Call V) : s.nextId ≤ (s.call json call).1.nextId := by
  cases call with
  | acceptConnections pending => exact acceptConnections_nextId maxAcceptsPerPoll pending s
  | pollClients => exact Nat.le_of_eq (poll_spec json s).nextId.symm
  | respond clientId resp =>
    unfold IpcServer.call respond
    dsimp only
    split
    · exact Nat.le_refl _
    · split <;> exact Nat.le_refl _
  | subscribe | broadcast => exact Nat.le_refl _

end IpcServer

end Jwm.Ipc
