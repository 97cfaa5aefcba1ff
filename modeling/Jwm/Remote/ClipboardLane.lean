/-
Each direction of a clipboard session is a lane of window flow control: whatever an end does is, for the
direction it sends in and for the one it receives in, a run of lane steps. So the window is kept on both
sides of every run.
-/
import Jwm.Data.Window
import Jwm.Remote.ClipboardFlow
import Jwm.Remote.ClipboardSession

namespace Jwm.Remote

open List Option BoundedQueue End

variable {R S : Type}

/-! ## Queued commands -/

/-- The `Data` of a command queue, by transfer and length. -/
def queuedData (commands : List Command) : List (Nat × Nat) :=
  commands.filterMap fun
    | .peer (.data id bytes) => some (id, bytes.length)
    | _ => none

def queuedAcks (commands : List Command) : List (Nat × Nat) :=
  commands.filterMap fun
    | .peer (.ack id consumed) => some (id, consumed)
    | _ => none

theorem queuedData_cons (command : Command) (commands : List Command) :
    queuedData (command :: commands) = queuedData [command] ++ queuedData commands := by
  show queuedData ([command] ++ commands) = _
  exact filterMap_append

theorem queuedAcks_cons (command : Command) (commands : List Command) :
    queuedAcks (command :: commands) = queuedAcks [command] ++ queuedAcks commands := by
  show queuedAcks ([command] ++ commands) = _
  exact filterMap_append

theorem filter_local (commands : List Command) (replacing : Bool) :
    queuedData (commands.filter fun old => !(replacing && old.isLocal)) = queuedData commands ∧
      queuedAcks (commands.filter fun old => !(replacing && old.isLocal)) = queuedAcks commands := by
  induction commands with
  | nil => exact ⟨rfl, rfl⟩
  | cons command commands ih =>
    rw [queuedData_cons command commands, queuedAcks_cons command commands, ← ih.1, ← ih.2]
    cases hlocal : (replacing && command.isLocal) with
    | false =>
      rw [filter_cons_of_pos (by rw [hlocal]; rfl), queuedData_cons, queuedAcks_cons]
      exact ⟨rfl, rfl⟩
    | true =>
      rw [filter_cons_of_neg (by rw [hlocal]; decide)]
      cases command with
      | «local» copied => exact ⟨rfl, rfl⟩
      | _ => simp [Command.isLocal] at hlocal

/-- What sending a command to a queue does to what came from the peer. -/
structure Posted (command : Command) (q q' : BoundedQueue Command) : Prop where
  closed : q.closed = false
  closed' : q'.closed = false
  data : queuedData q'.records = queuedData q.records ++ queuedData [command]
  acks : queuedAcks q'.records = queuedAcks q.records ++ queuedAcks [command]
  mem : ∀ c ∈ q'.records, c ∈ q.records ∨ c = command

def Command.isShutdown : Command → Bool
  | .stop | .localClosed => true
  | _ => false

section

variable {command : Command} (q : BoundedQueue Command) (h : command.isShutdown = false)
include h

theorem sendCommand_sized {size : Nat} (hs : command.size = some size) :
    sendCommand q command = q.push command size fun old => command.isLocal && old.isLocal := by
  unfold sendCommand
  split
  · cases h
  · cases h
  · rw [hs]

theorem sendCommand_unfit (hs : command.size = none) :
    sendCommand q command = if q.closed then (q, false) else (q.close, false) := by
  unfold sendCommand
  split
  · cases h
  · cases h
  · rw [hs]

end

theorem sendCommand_cases (q : BoundedQueue Command) (command : Command) :
    ((sendCommand q command).2 = true ∧ Posted command q (sendCommand q command).1) ∨
      ((sendCommand q command).2 = command.isShutdown ∧ (sendCommand q command).1.closed = true) := by
  have push : ∀ (size : Nat), ((q.push command size fun old => command.isLocal && old.isLocal).2 = true ∧
      Posted command q (q.push command size fun old => command.isLocal && old.isLocal).1) ∨
      ((q.push command size fun old => command.isLocal && old.isLocal).2 = false ∧
        (q.push command size fun old => command.isLocal && old.isLocal).1.closed = true) := by
    intro size
    rcases q.push_cases command size (fun old => command.isLocal && old.isLocal) with
      ⟨hok, hopen', hopen, hrecords⟩ | hfailed
    · obtain ⟨hdata, hacks⟩ := filter_local q.records command.isLocal
      refine .inl ⟨hok, hopen, hopen', ?_, ?_, fun c hc => ?_⟩
      · rw [hrecords, queuedData, filterMap_append]
        exact congrArg (· ++ _) hdata
      · rw [hrecords, queuedAcks, filterMap_append]
        exact congrArg (· ++ _) hacks
      · rw [hrecords] at hc
        rcases mem_append.1 hc with hc | hc
        · exact .inl (mem_filter.1 hc).1
        · exact .inr (mem_singleton.1 hc)
    · exact .inr hfailed
  have other : command.isShutdown = false →
      ((sendCommand q command).2 = true ∧ Posted command q (sendCommand q command).1) ∨
      ((sendCommand q command).2 = false ∧ (sendCommand q command).1.closed = true) := by
    intro h
    cases hs : command.size with
    | some size =>
      rw [sendCommand_sized q h hs]
      exact push size
    | none =>
      right
      rw [sendCommand_unfit q h hs]
      split
      · exact ⟨rfl, ‹_›⟩
      · exact ⟨rfl, rfl⟩
  cases command with
  | stop | localClosed => exact .inr ⟨rfl, rfl⟩
  | «local» copied => exact other rfl
  | peerText value | peer op => exact other rfl

/-! ## Lanes -/

def Sending.transfer (s : Sending R) : Transfer Nat := ⟨s.id, s.start, s.length, s.ended⟩

/-- The direction from `sender` to `receiver`, with the records on the links there and back. -/
def lane (sender receiver : End R S) (there back : List Outgoing) : Lane Nat where
  sent := sender.worker.sentTotal
  acked := sender.worker.ackedTotal
  consumed := receiver.worker.consumedTotal
  pending := receiver.worker.inFlight
  isOpen := !receiver.commands.closed
  travelling := dataOf there ++ dataOf sender.worker.out.records
  queued := queuedData receiver.commands.records
  acks := acksOf receiver.worker.out.records ++ acksOf back ++ queuedAcks sender.commands.records
  current := sender.worker.sending.map Sending.transfer

theorem SameRecords.data_sublist {q q' : BoundedQueue Outgoing} (h : SameRecords q q') :
    (dataOf q'.records).Sublist (dataOf q.records) := by
  rcases h.records with ⟨hdata, _⟩ | hclosed
  · rw [hdata]
  · rw [records_of_closed hclosed]
    exact nil_sublist _

theorem SameRecords.acks_subset {q q' : BoundedQueue Outgoing} (h : SameRecords q q') :
    ∀ a ∈ acksOf q'.records, a ∈ acksOf q.records := by
  rcases h.records with ⟨_, hacks⟩ | hclosed
  · rw [hacks]
    exact fun _ ha => ha
  · rw [records_of_closed hclosed]
    exact fun _ ha => absurd ha not_mem_nil

section Moves

variable {careful : Prop} {e other : End R S} {w w' : Worker R S} {there back : List Outgoing}

open Sending

theorem Quiet.sender (h : Quiet w w') (e other : End R S) (there back : List Outgoing) :
    (lane { e with worker := w } other there back).Fewer (lane { e with worker := w' } other there back) := by
  refine ⟨h.sentTotal, h.ackedTotal, rfl, rfl, rfl, h.out.data_sublist.append_left _, rfl, fun _ ha => ha, ?_⟩
  rcases h.sending with hs | hs
  · exact .inl (congrArg (Option.map transfer) hs)
  · exact .inr (congrArg (Option.map transfer) hs)

theorem receiver_fewer {w w' : Worker R S} (e other : End R S) (there back : List Outgoing)
    (hconsumed : w'.consumedTotal = w.consumedTotal) (hinFlight : w'.inFlight = w.inFlight)
    (hacks : ∀ a ∈ acksOf w'.out.records, a ∈ acksOf w.out.records) :
    (lane other { e with worker := w } there back).Fewer (lane other { e with worker := w' } there back) := by
  refine ⟨rfl, rfl, hconsumed, hinFlight, rfl, .refl _, rfl, fun a ha => ?_, .inr rfl⟩
  rw [lane, append_assoc, mem_append] at ha ⊢
  exact ha.imp_left (hacks a)

theorem Move.sender (h : Move careful w w') (e other : End R S) (there back : List Outgoing) :
    (lane { e with worker := w } other there back).Step transferWindowBytes careful
      (lane { e with worker := w' } other there back) := by
  cases h with
  | quiet h => exact .lose (h.sender e other there back)
  | start s h hsending hstart hsent hended hfull =>
    refine .start s.id s.length hfull ⟨h.sentTotal, h.ackedTotal, rfl, rfl, rfl, h.out.data_sublist.append_left _, rfl,
      fun _ ha => ha, .inr ?_⟩
    show w'.sending.map transfer = some ⟨s.id, w.sentTotal, s.length, false⟩
    rw [hsending, map_some, transfer, hstart, hended]
  | chunk s source n hsending hended hpos hfits hwindow hsending' hoptions hsent hacked hconsumed hinFlight hclosed hout =>
    refine .send s.transfer n (congrArg (Option.map transfer) hsending) hwindow
      ⟨hsent, hacked, rfl, rfl, rfl, ?_, rfl, fun _ ha => ha, .inr ?_⟩
    · show (dataOf there ++ dataOf w'.out.records).Sublist (dataOf there ++ dataOf w.out.records ++ [(s.id, n)])
      rw [append_assoc]
      refine List.Sublist.append_left ?_ _
      rcases hout with ⟨hdata, _⟩ | hclosed'
      · rw [hdata]
      · rw [records_of_closed hclosed']
        exact nil_sublist _
    · show w'.sending.map transfer = w.sending.map transfer
      rw [hsending, hsending']
      rfl
  | finish s h hsending hended hsent hsending' =>
    refine .finish s.transfer (congrArg (Option.map transfer) hsending) hended
      ⟨h.sentTotal, h.ackedTotal, rfl, rfl, rfl, h.out.data_sublist.append_left _, rfl, fun _ ha => ha, .inr ?_⟩
    exact congrArg (Option.map transfer) hsending'

theorem Move.receiver (h : Move careful w w') (e other : End R S) (there back : List Outgoing) :
    (lane other { e with worker := w } there back).Fewer (lane other { e with worker := w' } there back) := by
  cases h with
  | quiet h => exact receiver_fewer e other there back h.consumedTotal h.inFlight h.out.acks_subset
  | start s h _ _ _ _ _ | finish s h _ _ _ _ => exact receiver_fewer e other there back h.consumedTotal h.inFlight h.out.acks_subset
  | chunk s source n _ _ _ _ _ _ _ _ _ hconsumed hinFlight _ hout =>
    refine receiver_fewer e other there back hconsumed hinFlight ?_
    rcases hout with ⟨_, hacks⟩ | hclosed'
    · rw [hacks]
      exact fun _ ha => ha
    · rw [records_of_closed hclosed']
      exact fun _ ha => absurd ha not_mem_nil

theorem Moves.sender (h : Moves careful w w') (e other : End R S) (there back : List Outgoing) :
    (lane { e with worker := w } other there back).Steps transferWindowBytes careful
      (lane { e with worker := w' } other there back) :=
  h.lift (fun w => lane { e with worker := w } other there back) fun _ _ hmove => hmove.sender e other there back

theorem Moves.receiver (h : Moves careful w w') (e other : End R S) (there back : List Outgoing) :
    (lane other { e with worker := w } there back).Steps transferWindowBytes careful
      (lane other { e with worker := w' } there back) :=
  h.lift (fun w => lane other { e with worker := w } there back) fun _ _ hmove => .lose (hmove.receiver e other there back)

end Moves

/-! ## Applying a command -/

/-- What applying an admitted command does to flow control. -/
inductive Applied (careful : Prop) (command : Command) (w w' : Worker R S) : Prop
  | moves (h : Moves careful w w') (hdata : queuedData [command] = []) (hacks : queuedAcks [command] = [])
  | data (id : Nat) (bytes : List Byte) (hcommand : command = .peer (.data id bytes)) (h : Consumed id bytes.length w w')
  | ack (id consumed : Nat) (hcommand : command = .peer (.ack id consumed)) (h : w' = w.onAck id consumed)

open Quiet

/-- `apply` of a command that `deliver` let through, or of a local copy. -/
theorem apply_applied {careful : Prop} {env : Surroundings R S} (henv : env.Sound) {command : Command} (w : Worker R S)
    (hadmitted : ∀ op, command = .peer op → w.options.validatePeerOp op = .ok ())
    (hcareful : careful → ∀ copied, command = .local copied → w.sharesImages = true → copied ≠ .png []) :
    Applied careful command w (w.apply env command) := by
  cases command with
  | stop | localClosed => exact .moves .refl rfl rfl
  | «local» copied => exact .moves (Moves.shareLocal henv w fun hc => hcareful hc copied rfl) rfl rfl
  | peerText value =>
    have hdrop : Quiet w ((w.cancelSending).dropReceiving env false) := (cancelSending w).trans (.dropReceiving env _ false)
    refine .moves (moves ?_) rfl rfl
    unfold Worker.apply
    dsimp only
    split
    · exact .refl w
    · refine hdrop.trans (.trans ?_ (.serve env _ _))
      exact ⟨⟨rfl, rfl, rfl, rfl, rfl, .refl _⟩, .inr rfl⟩
  | peer op =>
    have hvalid := hadmitted op rfl
    show Applied careful (.peer op) w (w.onPeer env op)
    unfold Worker.onPeer
    rw [hvalid]
    cases op with
    | begin id kind length entries items => exact .moves (onBegin env w id kind length entries).moves rfl rfl
    | data id bytes => exact .data id bytes rfl (onData_consumed env w id bytes)
    | finish id => exact .moves (finishReceiving env w id).moves rfl rfl
    | cancel id =>
      refine .moves (moves ?_) rfl rfl
      dsimp only
      split
      · exact .dropReceiving env w false
      · exact .refl w
    | ack id consumed => exact .ack id consumed rfl rfl
    | refuse id =>
      refine .moves (moves ?_) rfl rfl
      dsimp only
      split
      · exact .dropSending w
      · exact .refl w

theorem Moves.options {careful : Prop} {w w' : Worker R S} (h : Moves careful w w') : w'.options = w.options := by
  induction h with
  | refl => rfl
  | tail _ hmove ih =>
    refine Eq.trans ?_ ih
    cases hmove with
    | quiet h | start s h _ _ _ _ _ => exact h.options
    | chunk s source n _ _ _ _ _ _ hoptions _ _ _ _ _ _ => exact hoptions
    | finish s h _ _ _ _ => exact h.options

theorem onAck_eq (w : Worker R S) (id consumed : Nat) : w.onAck id consumed = { w with
    ackedTotal := max (min consumed w.sentTotal) w.ackedTotal
    sending := w.sending.filter fun s => !(s.id = id && s.ended && max (min consumed w.sentTotal) w.ackedTotal ≥ s.start + s.length) } := by
  unfold Worker.onAck
  dsimp only
  generalize max (min consumed w.sentTotal) w.ackedTotal = acked
  cases w with
  | mk out inFlight options staging nextId nextToken sending receiving pendingToken sentTotal ackedTotal consumedTotal
      lastReceived call requests =>
    cases sending with
    | none => rfl
    | some s =>
      rw [filter_some, filter_some]
      by_cases hid : s.id = id
      · by_cases hover : (s.ended && decide (acked ≥ s.start + s.length)) = true
        · simp [hid, hover]
        · simp [hid, hover]
      · simp [hid]

theorem Applied.options {careful : Prop} {command : Command} {w w' : Worker R S} (h : Applied careful command w w') :
    w'.options = w.options := by
  cases h with
  | moves h _ _ | data id bytes _ h => exact h.options
  | ack id consumed _ h =>
    rw [h, onAck_eq]

section Applied

variable {careful : Prop} {command : Command} {w w' : Worker R S} {q q' : BoundedQueue Command}

theorem Applied.sender (h : Applied careful command w w') (hpop : q.records = command :: q'.records)
    (hcareful : careful → ∀ id consumed, command = .peer (.ack id consumed) →
      ∀ s ∈ w.sending, s.ended = false → consumed < s.start + s.length)
    (reading : Bool) (other : End R S) (there back : List Outgoing) :
    (lane ⟨w, q, reading⟩ other there back).Steps transferWindowBytes careful (lane ⟨w', q', reading⟩ other there back) := by
  -- what is left in the queue was there before
  have hrest : ∀ a ∈ queuedAcks q'.records, a ∈ queuedAcks q.records := by
    intro a ha
    rw [hpop, queuedAcks_cons]
    exact mem_append_right _ ha
  have hacks : ∀ a ∈ (lane ⟨w', q', reading⟩ other there back).acks, a ∈ (lane ⟨w, q, reading⟩ other there back).acks := by
    intro a ha
    rcases mem_append.1 ha with ha | ha
    · exact mem_append_left _ ha
    · exact mem_append_right _ (hrest a ha)
  cases h with
  | moves h _ _ =>
    refine (h.sender ⟨w, q, reading⟩ other there back).tail (.lose ?_)
    exact ⟨rfl, rfl, rfl, rfl, rfl, .refl _, rfl, hacks, .inr rfl⟩
  | data id bytes _ h =>
    refine .single (.lose ⟨h.sentTotal, h.ackedTotal, rfl, rfl, rfl, List.Sublist.append_left ?_ _, rfl, hacks, ?_⟩)
    · rcases h.out with ⟨hdata, _⟩ | hclosed
      · rw [hdata]
      · rw [records_of_closed hclosed]
        exact nil_sublist _
    · exact h.sending.imp (congrArg (Option.map Sending.transfer)) (congrArg (Option.map Sending.transfer))
  | ack id consumed hcommand h =>
    have hmem : (id, consumed) ∈ (lane ⟨w, q, reading⟩ other there back).acks := by
      refine mem_append_right _ ?_
      rw [hpop, hcommand, queuedAcks_cons]
      exact mem_append_left _ (mem_singleton.2 rfl)
    refine .single (.acknowledge id consumed hmem ?_ ?_)
    · intro hc t ht hended
      obtain ⟨s, hs, rfl⟩ := map_eq_some_iff.1 ht
      exact hcareful hc id consumed hcommand s hs hended
    · rw [h, onAck_eq]
      refine ⟨rfl, rfl, rfl, rfl, rfl, .refl _, rfl, ?_, .inr ?_⟩
      · rw [h, onAck_eq] at hacks
        exact hacks
      · show Option.map Sending.transfer _ = Option.filter _ (Option.map Sending.transfer w.sending)
        rw [Option.filter_map]
        rfl

theorem Applied.receiver (h : Applied careful command w w') (hpop : q.records = command :: q'.records)
    (hclosed : q'.closed = q.closed) (reading : Bool) (other : End R S) (there back : List Outgoing) :
    (lane other ⟨w, q, reading⟩ there back).Steps transferWindowBytes careful (lane other ⟨w', q', reading⟩ there back) := by
  have hqueued : queuedData q.records = queuedData [command] ++ queuedData q'.records := by
    rw [hpop, queuedData_cons]
  have hopen : (!q'.closed) = !q.closed := congrArg (!·) hclosed
  cases h with
  | moves h hdata _ =>
    rw [hdata, nil_append] at hqueued
    refine (h.receiver ⟨w, q, reading⟩ other there back).tail (.lose ?_)
    exact ⟨rfl, rfl, rfl, rfl, hopen, .refl _, hqueued.symm, fun _ ha => ha, .inr rfl⟩
  | data id bytes hcommand h =>
    rw [hcommand] at hqueued
    refine .single (.consume (id, bytes.length) (queuedData q'.records) hqueued ?_)
    refine ⟨rfl, rfl, h.consumedTotal, h.inFlight, hopen, .refl _, rfl, fun a ha => ?_, .inr rfl⟩
    rcases mem_append.1 ha with ha | ha
    · rcases mem_append.1 ha with ha | ha
      · rcases h.out with ⟨_, hacks⟩ | hout
        · rcases hacks a ha with ha | rfl
          · exact .tail _ (mem_append_left _ (mem_append_left _ ha))
          · exact .head _
        · rw [records_of_closed hout] at ha
          cases ha
      · exact .tail _ (mem_append_left _ (mem_append_right _ ha))
    · exact .tail _ (mem_append_right _ ha)
  | ack id consumed hcommand h =>
    have hdata : queuedData [command] = [] := by
      rw [hcommand]
      rfl
    rw [hdata, nil_append] at hqueued
    rw [h, onAck_eq]
    exact .single (.lose ⟨rfl, rfl, rfl, rfl, hopen, .refl _, hqueued.symm, fun _ ha => ha, .inr rfl⟩)

end Applied

/-! ## Delivering a record -/

/-- What delivering a record does: nothing, its command behind the others, or a closed queue. -/
inductive Delivered (record : Outgoing) (e e' : End R S) : Prop
  | rejected (h : e' = e)
  | queued (command : Command) (hposted : Posted command e.commands e'.commands)
      (hadmitted : ∀ op, command = .peer op → e.worker.options.validatePeerOp op = .ok ())
      (hdata : queuedData [command] = dataOf [record]) (hacks : queuedAcks [command] = acksOf [record])
      (hworker : e'.worker = { e.worker with inFlight := e.worker.inFlight + chunkBytes (dataOf [record]) })
  | closed (hclosed : e'.commands.closed = true) (hworker : e'.worker = e.worker)

theorem post_delivered {command : Command} {record : Outgoing} {n : Nat} (e : End R S) (hshutdown : command.isShutdown = false)
    (hadmitted : ∀ op, command = .peer op → e.worker.options.validatePeerOp op = .ok ())
    (hdata : queuedData [command] = dataOf [record]) (hacks : queuedAcks [command] = acksOf [record])
    (hn : chunkBytes (dataOf [record]) = n) :
    Delivered record e (End.post { e with worker.inFlight := e.worker.inFlight + n } command n).1 := by
  have hcases := sendCommand_cases e.commands command
  unfold End.post
  generalize sendCommand e.commands command = sent at hcases ⊢
  obtain ⟨commands, ok⟩ := sent
  rcases hcases with ⟨hok, hposted⟩ | ⟨hok, hclosed⟩
  · obtain rfl : ok = true := hok
    refine .queued command hposted hadmitted hdata hacks ?_
    rw [hn]
  · obtain rfl : ok = false := hok.trans hshutdown
    refine .closed hclosed ?_
    rw [Nat.add_sub_cancel]

theorem deliverRecord_delivered (e : End R S) (record : Outgoing) : Delivered record e (e.deliverRecord record).1 := by
  cases record with
  | clipboard payload =>
    unfold deliverRecord deliver
    dsimp only
    split
    · exact .rejected rfl
    · split
      · exact .rejected rfl
      · exact post_delivered (n := 0) e rfl (fun op h => by cases h) rfl rfl rfl
  | transfer op =>
    unfold deliverRecord deliverOp
    dsimp only
    split
    · exact .rejected rfl
    · rename_i hvalid
      have hadmitted : ∀ op', Command.peer op = .peer op' → e.worker.options.validatePeerOp op' = .ok () := by
        rintro op' h
        obtain rfl := Command.peer.inj h
        exact hvalid
      cases op with
      | data id bytes =>
        dsimp only
        split
        · exact .closed rfl rfl
        · exact post_delivered e rfl hadmitted rfl rfl (by simp [dataOf])
      | begin id kind length entries items => exact post_delivered (n := 0) e rfl hadmitted rfl rfl rfl
      | finish id | cancel id | ack id consumed | refuse id => exact post_delivered (n := 0) e rfl hadmitted rfl rfl rfl

theorem data_or_none (record : Outgoing) : (∃ id bytes, record = .transfer (.data id bytes)) ∨ dataOf [record] = [] := by
  cases record with
  | clipboard payload => exact .inr rfl
  | transfer op =>
    cases op with
    | data id bytes => exact .inl ⟨id, bytes, rfl⟩
    | _ => exact .inr rfl

section Delivered

variable {careful : Prop} {record : Outgoing} {e e' : End R S}

/-- For the direction the end sends in: an acknowledgement is queued, or lost. -/
theorem Delivered.sender (h : Delivered record e e') (other : End R S) (there back : List Outgoing) :
    (lane e other there (record :: back)).Fewer (lane e' other there back) := by
  have hback : acksOf (record :: back) = acksOf [record] ++ acksOf back := acksOf_append [record] back
  -- an acknowledgement that is queued now was queued before, or on the link
  have moved : (∀ a ∈ queuedAcks e'.commands.records, a ∈ queuedAcks e.commands.records ∨ a ∈ acksOf [record]) →
      ∀ a ∈ (lane e' other there back).acks, a ∈ (lane e other there (record :: back)).acks := by
    intro hqueued a ha
    simp only [lane, hback, mem_append] at ha ⊢
    rcases ha with (ha | ha) | ha
    · exact .inl (.inl ha)
    · exact .inl (.inr (.inr ha))
    · rcases hqueued a ha with ha | ha
      · exact .inr ha
      · exact .inl (.inr (.inl ha))
  cases h with
  | rejected h =>
    subst h
    exact ⟨rfl, rfl, rfl, rfl, rfl, .refl _, rfl, moved fun _ ha => .inl ha, .inr rfl⟩
  | closed hclosed hworker =>
    have hacks := moved fun a ha => by
      rw [records_of_closed hclosed] at ha
      cases ha
    obtain ⟨w', q', reading'⟩ := e'
    subst hworker
    exact ⟨rfl, rfl, rfl, rfl, rfl, .refl _, rfl, hacks, .inr rfl⟩
  | queued command hposted _ _ hacks hworker =>
    have hmoved := moved fun a ha => by
      rw [hposted.acks, hacks] at ha
      exact mem_append.1 ha
    obtain ⟨w', q', reading'⟩ := e'
    subst hworker
    exact ⟨rfl, rfl, rfl, rfl, rfl, .refl _, rfl, hmoved, .inr rfl⟩

theorem Delivered.receiver (h : Delivered record e e') (other : End R S) (there back : List Outgoing) :
    (lane other e (record :: there) back).Steps transferWindowBytes careful (lane other e' there back) := by
  have hthere : dataOf (record :: there) = dataOf [record] ++ dataOf there := dataOf_append [record] there
  have hlost : (dataOf there ++ dataOf other.worker.out.records).Sublist
      (dataOf (record :: there) ++ dataOf other.worker.out.records) := by
    rw [hthere, append_assoc]
    exact sublist_append_right _ _
  cases h with
  | rejected h =>
    subst h
    exact .single (.lose ⟨rfl, rfl, rfl, rfl, rfl, hlost, rfl, fun _ ha => ha, .inr rfl⟩)
  | closed hclosed hworker =>
    have hempty : queuedData e'.commands.records = [] := by
      rw [records_of_closed hclosed]
      rfl
    have hopen : (!e'.commands.closed) = false := by
      rw [hclosed]
      rfl
    obtain ⟨w', q', reading'⟩ := e'
    subst hworker
    exact .single (.close ⟨rfl, rfl, rfl, rfl, hopen, hlost, hempty, fun _ ha => ha, .inr rfl⟩)
  | queued command hposted _ hdata _ hworker =>
    have hopen : (!e.commands.closed) = true := by
      rw [hposted.closed]
      rfl
    have hopen' : (!e'.commands.closed) = !e.commands.closed := by rw [hposted.closed, hposted.closed']
    have hqueued : queuedData e'.commands.records = queuedData e.commands.records ++ dataOf [record] := by
      rw [hposted.data, hdata]
    obtain ⟨w', q', reading'⟩ := e'
    subst hworker
    rcases data_or_none record with ⟨id, bytes, rfl⟩ | hnone
    · refine .single (.arrive (id, bytes.length) (dataOf there ++ dataOf other.worker.out.records) hopen ?_ ?_)
      · show dataOf (_ :: there) ++ _ = _
        rw [hthere]
        rfl
      · exact ⟨rfl, rfl, rfl, rfl, hopen', .refl _, hqueued, fun _ ha => ha, .inr rfl⟩
    · rw [hnone, append_nil] at hqueued
      refine .single (.lose ⟨rfl, rfl, rfl, ?_, hopen', hlost, hqueued, fun _ ha => ha, .inr rfl⟩)
      rw [hnone]
      rfl

end Delivered

/-! ## Answers of `deliver` -/

theorem post_ne_exceeded (e : End R S) (command : Command) (n : Nat) : (e.post command n).2 ≠ .error exceeded := by
  unfold End.post
  split
  · exact nofun
  · exact fun h => absurd (Except.error.inj h) (by decide)

theorem validatePeerOp_ne_exceeded (o : SyncOptions) (op : TransferOp) : o.validatePeerOp op ≠ .error exceeded := by
  intro h
  unfold SyncOptions.validatePeerOp at h
  repeat' split at h
  all_goals first | cases h | exact absurd (Except.error.inj h) (by decide)

theorem decodeClipboard_ne_exceeded (payload : List Byte) : decodeClipboard payload ≠ .error exceeded := by
  intro h
  unfold decodeClipboard at h
  split at h
  · have hstart := congrArg (fun s => s.toList.head?) (Except.error.inj h)
    simp [exceeded] at hstart
  · split at h
    · exact absurd (Except.error.inj h) (by decide)
    · cases h

theorem deliverRecord_exceeded {e : End R S} {record : Outgoing} (h : (e.deliverRecord record).2 = .error exceeded) :
    ∃ id bytes, record = .transfer (.data id bytes) ∧ transferWindowBytes < e.worker.inFlight + bytes.length := by
  cases record with
  | clipboard payload =>
    unfold deliverRecord deliver at h
    dsimp only at h
    split at h
    · exact absurd (Except.error.inj h) (by decide)
    · split at h
      · rename_i error hdecode
        rw [Except.error.inj h] at hdecode
        exact absurd hdecode (decodeClipboard_ne_exceeded payload)
      · exact absurd h (post_ne_exceeded e _ 0)
  | transfer op =>
    unfold deliverRecord deliverOp at h
    dsimp only at h
    split at h
    · rename_i error hvalid
      rw [Except.error.inj h] at hvalid
      exact absurd hvalid (validatePeerOp_ne_exceeded _ op)
    · split at h
      · rename_i id bytes _
        split at h
        · exact ⟨id, bytes, rfl, ‹_›⟩
        · exact absurd h (post_ne_exceeded _ _ _)
      · exact absurd h (post_ne_exceeded e _ 0)

end Jwm.Remote
