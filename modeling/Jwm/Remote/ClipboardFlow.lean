/-
What the operations of a clipboard worker do to flow control: the counters, the `Data` and `Ack` records
in its out queue, and the transfer it sends. Most operations are quiet; a pump sends chunks within the
window, applied data is counted as consumed and acknowledged.
-/
import Jwm.Remote.ClipboardWorker

namespace Jwm.Remote

open List Worker

/-! ## Data and acknowledgements -/

/-- The `Data` records, by transfer and length. -/
def dataOf (records : List Outgoing) : List (Nat × Nat) :=
  records.filterMap fun
    | .transfer (.data id bytes) => some (id, bytes.length)
    | _ => none

def acksOf (records : List Outgoing) : List (Nat × Nat) :=
  records.filterMap fun
    | .transfer (.ack id consumed) => some (id, consumed)
    | _ => none

def Outgoing.Plain : Outgoing → Prop
  | .transfer (.data ..) | .transfer (.ack ..) => False
  | _ => True

@[simp] theorem dataOf_append (a b : List Outgoing) : dataOf (a ++ b) = dataOf a ++ dataOf b := filterMap_append

@[simp] theorem acksOf_append (a b : List Outgoing) : acksOf (a ++ b) = acksOf a ++ acksOf b := filterMap_append

variable {record : Outgoing}

theorem dataOf_plain (h : record.Plain) : dataOf [record] = [] ∧ acksOf [record] = [] := by
  cases record with
  | clipboard payload => exact ⟨rfl, rfl⟩
  | transfer op => cases op <;> first | exact ⟨rfl, rfl⟩ | exact absurd h id

/-! ## Queueing -/

/-- The queue holds what it held, or was closed. -/
structure SameRecords (q q' : BoundedQueue Outgoing) : Prop where
  closed : q.closed = true → q'.closed = true
  records : (dataOf q'.records = dataOf q.records ∧ acksOf q'.records = acksOf q.records) ∨ q'.closed = true

section

variable (q : BoundedQueue Outgoing)

theorem SameRecords.refl : SameRecords q q := ⟨id, .inl ⟨rfl, rfl⟩⟩

theorem SameRecords.close : SameRecords q q.close := ⟨fun _ => rfl, .inr rfl⟩

theorem SameRecords.trans {q q' q'' : BoundedQueue Outgoing} (h : SameRecords q q') (h' : SameRecords q' q'') :
    SameRecords q q'' := by
  refine ⟨fun hc => h'.closed (h.closed hc), ?_⟩
  rcases h.records with ⟨hd, ha⟩ | hc
  · exact h'.records.imp_left fun hr => ⟨hr.1.trans hd, hr.2.trans ha⟩
  · exact .inr (h'.closed hc)

/-- A record that is no acknowledgement goes behind the others, or closes the queue. -/
theorem sendOutgoing_records (h : record.ackId = none) :
    (sendOutgoing q record).1.records = q.records ++ [record] ∨ (sendOutgoing q record).1.closed = true := by
  rcases q.push_cases record record.size (fun old => record.ackId.isSome && old.ackId == record.ackId) with
    ⟨_, _, _, hrecords⟩ | ⟨_, hclosed⟩
  · left
    refine hrecords.trans ?_
    rw [h]
    simp
  · exact .inr hclosed

theorem SameRecords.send (h : record.Plain) :
    SameRecords q (sendOutgoing q record).1 := by
  have hid : record.ackId = none := by
    cases record with
    | clipboard payload => rfl
    | transfer op => cases op <;> first | rfl | exact absurd h id
  refine ⟨fun hc => closed_of_sendOutgoing hc record, ?_⟩
  rcases sendOutgoing_records q hid with hrecords | hclosed
  · obtain ⟨hdata, hacks⟩ := dataOf_plain h
    left
    rw [hrecords, dataOf_append, acksOf_append, hdata, hacks, append_nil, append_nil]
    exact ⟨rfl, rfl⟩
  · exact .inr hclosed

/-- Filtering acknowledgements out leaves the data, and acknowledgements that were there. -/
theorem filter_acks (records : List Outgoing) (id : Nat) :
    dataOf (records.filter fun r => !(r.ackId == some id)) = dataOf records ∧
      ∀ a ∈ acksOf (records.filter fun r => !(r.ackId == some id)), a ∈ acksOf records := by
  refine ⟨?_, fun a ha => ?_⟩
  · induction records with
    | nil => rfl
    | cons record records ih =>
      cases hr : record.ackId == some id with
      | false =>
        rw [filter_cons_of_pos (by rw [hr]; rfl)]
        show dataOf ([record] ++ _) = dataOf ([record] ++ records)
        rw [dataOf_append, dataOf_append, ih]
      | true =>
        rw [filter_cons_of_neg (by rw [hr]; decide), ih]
        show dataOf records = dataOf ([record] ++ records)
        have hnone : dataOf [record] = [] := by
          cases record with
          | clipboard payload => rfl
          | transfer op => cases op <;> first | rfl | cases hr
        rw [dataOf_append, hnone, nil_append]
  · obtain ⟨r, hr, hra⟩ := mem_filterMap.1 ha
    exact mem_filterMap.2 ⟨r, (mem_filter.1 hr).1, hra⟩

/-- Sending an acknowledgement keeps the data, and every acknowledgement is an old one or the new one. -/
theorem sendAck (id consumed : Nat) :
    (dataOf (sendOutgoing q (.transfer (.ack id consumed))).1.records = dataOf q.records ∧
      ∀ a ∈ acksOf (sendOutgoing q (.transfer (.ack id consumed))).1.records, a ∈ acksOf q.records ∨ a = (id, consumed)) ∨
    (sendOutgoing q (.transfer (.ack id consumed))).1.closed = true := by
  rcases q.push_cases (.transfer (.ack id consumed)) (Outgoing.size (.transfer (.ack id consumed)))
    (fun old => (Outgoing.ackId (.transfer (.ack id consumed))).isSome &&
      old.ackId == Outgoing.ackId (.transfer (.ack id consumed))) with ⟨_, _, _, hrecords⟩ | ⟨_, hclosed⟩
  · left
    have heq : (sendOutgoing q (.transfer (.ack id consumed))).1.records =
        (q.records.filter fun r => !(r.ackId == some id)) ++ [.transfer (.ack id consumed)] := by
      refine hrecords.trans ?_
      simp [Outgoing.ackId]
    obtain ⟨hdata, hacks⟩ := filter_acks q.records id
    rw [heq, dataOf_append, acksOf_append, hdata]
    refine ⟨append_nil _, fun a ha => ?_⟩
    rcases mem_append.1 ha with ha | ha
    · exact .inl (hacks a ha)
    · exact .inr (mem_singleton.1 ha)
  · exact .inr hclosed

end

/-! ## Quiet operations -/

section Quiet

variable {R S : Type}

/-- The counters are the same, and flow control sees the same records. -/
structure SameFlow (w w' : Worker R S) : Prop where
  options : w'.options = w.options
  sentTotal : w'.sentTotal = w.sentTotal
  ackedTotal : w'.ackedTotal = w.ackedTotal
  consumedTotal : w'.consumedTotal = w.consumedTotal
  inFlight : w'.inFlight = w.inFlight
  out : SameRecords w.out w'.out

/-- Moreover the outgoing transfer is the same, or dropped. -/
structure Quiet (w w' : Worker R S) : Prop extends SameFlow w w' where
  sending : w'.sending = none ∨ w'.sending = w.sending

variable {w w' w'' : Worker R S} {env : Surroundings R S}

theorem SameFlow.trans (h : SameFlow w w') (h' : SameFlow w' w'') : SameFlow w w'' :=
  ⟨h'.options.trans h.options, h'.sentTotal.trans h.sentTotal, h'.ackedTotal.trans h.ackedTotal, h'.consumedTotal.trans h.consumedTotal,
    h'.inFlight.trans h.inFlight, h.out.trans h'.out⟩

theorem Quiet.refl (w : Worker R S) : Quiet w w := ⟨⟨rfl, rfl, rfl, rfl, rfl, .refl _⟩, .inr rfl⟩

theorem Quiet.trans (h : Quiet w w') (h' : Quiet w' w'') : Quiet w w'' := by
  refine ⟨h.toSameFlow.trans h'.toSameFlow, ?_⟩
  rcases h'.sending with hs | hs
  · exact .inl hs
  · rw [hs]
    exact h.sending

theorem Quiet.queue {record : Outgoing} (w : Worker R S) (h : record.Plain) : Quiet w (w.queue record) :=
  ⟨⟨rfl, rfl, rfl, rfl, rfl, .send _ h⟩, .inr rfl⟩

theorem Quiet.dropSending (w : Worker R S) : Quiet w { w with sending := none } :=
  ⟨⟨rfl, rfl, rfl, rfl, rfl, .refl _⟩, .inl rfl⟩

open Quiet

theorem Quiet.abortSending (w : Worker R S) : Quiet w w.abortSending := by
  unfold Worker.abortSending
  split
  · exact (dropSending w).trans (.queue _ trivial)
  · exact .refl w

theorem Quiet.cancelSending (w : Worker R S) : Quiet w w.cancelSending := by
  unfold Worker.cancelSending
  split
  · dsimp only
    split
    · exact (dropSending w).trans (.queue _ trivial)
    · exact .dropSending w
  · exact .refl w

theorem Quiet.serve (env : Surroundings R S) (w : Worker R S) (request : RemoteServe) : Quiet w (w.serve env request).1 := by
  unfold Worker.serve
  split
  · exact .refl w
  · split
    · exact ⟨⟨rfl, rfl, rfl, rfl, rfl, .close _⟩, .inr rfl⟩
    · dsimp only
      split
      · exact ⟨⟨rfl, rfl, rfl, rfl, rfl, .refl _⟩, .inr rfl⟩
      · exact ⟨⟨rfl, rfl, rfl, rfl, rfl, .close _⟩, .inr rfl⟩

theorem Quiet.settle (h : Quiet w w') (request : RemoteServe) : Quiet w (match w'.serve env request with
    | (w, true) => { w with pendingToken := none }
    | (w, false) => w) := by
  have hserve := h.trans (serve env w' request)
  generalize w'.serve env request = served at hserve ⊢
  obtain ⟨w₁, answer⟩ := served
  cases answer with
  | true => exact ⟨⟨hserve.options, hserve.sentTotal, hserve.ackedTotal, hserve.consumedTotal, hserve.inFlight, hserve.out⟩, hserve.sending⟩
  | false => exact hserve

section

variable (env : Surroundings R S) (w : Worker R S)

theorem Quiet.dropReceiving (refuse : Bool) : Quiet w (w.dropReceiving env refuse) := by
  unfold Worker.dropReceiving
  split
  · exact .refl w
  · rename_i receiving _
    have hrefuse : Quiet w (if refuse = true then w.queueOp (.refuse receiving.id) else w) := by
      cases refuse with
      | true => exact .queue w trivial
      | false => exact .refl w
    have htaken : Quiet w { (if refuse = true then w.queueOp (.refuse receiving.id) else w) with receiving := none } :=
      ⟨⟨hrefuse.options, hrefuse.sentTotal, hrefuse.ackedTotal, hrefuse.consumedTotal, hrefuse.inFlight, hrefuse.out⟩, hrefuse.sending⟩
    exact htaken.settle _

theorem Quiet.accept (kind : TransferKind) (length entries : Nat) : Quiet w (w.accept env kind length entries).1 := by
  unfold Worker.accept
  split
  · exact .refl w
  · cases kind with
    | image =>
      dsimp only
      split
      · exact .refl w
      · split <;> exact .refl w
    | files =>
      dsimp only
      split
      · exact .refl w
      split
      · exact .refl w
      split
      · exact .refl w
      split
      · exact ⟨⟨rfl, rfl, rfl, rfl, rfl, .refl _⟩, .inr rfl⟩
      · split
        · exact ⟨⟨rfl, rfl, rfl, rfl, rfl, .refl _⟩, .inr rfl⟩
        · split <;> exact ⟨⟨rfl, rfl, rfl, rfl, rfl, .refl _⟩, .inr rfl⟩

theorem Quiet.onBegin (id : Nat) (kind : TransferKind) (length entries : Nat) :
    Quiet w (w.onBegin env id kind length entries) := by
  have hdrop := (Quiet.cancelSending w).trans (.dropReceiving env _ false)
  unfold Worker.onBegin
  dsimp only
  generalize (w.cancelSending).dropReceiving env false = w₁ at hdrop ⊢
  split
  · exact hdrop
  · have haccept := Quiet.accept env { w₁ with lastReceived := none } kind length entries
    generalize Worker.accept env { w₁ with lastReceived := none } kind length entries = accepted at haccept ⊢
    obtain ⟨w₂, result⟩ := accepted
    have h₂ : Quiet w w₂ := hdrop.trans
      ⟨⟨haccept.options, haccept.sentTotal, haccept.ackedTotal, haccept.consumedTotal, haccept.inFlight, haccept.out⟩, haccept.sending⟩
    cases result with
    | error error => exact h₂.trans (.queue w₂ trivial)
    | ok sink =>
      refine h₂.trans (.trans ?_ (.serve env _ _))
      exact ⟨⟨rfl, rfl, rfl, rfl, rfl, .refl _⟩, .inr rfl⟩

theorem Quiet.usable (receiving : Receiving S) : Quiet w (w.usable env receiving).1 := by
  unfold Worker.usable
  dsimp only
  split
  · split
    · split <;> exact .refl w
    · exact .refl w
  · split
    · split
      · split <;> exact ⟨⟨rfl, rfl, rfl, rfl, rfl, .refl _⟩, .inr rfl⟩
      · exact ⟨⟨rfl, rfl, rfl, rfl, rfl, .refl _⟩, .inr rfl⟩
    · exact .refl w

theorem Quiet.finishReceiving (id : Nat) : Quiet w (w.finishReceiving env id) := by
  unfold Worker.finishReceiving
  split
  · exact .refl w
  · rename_i receiving _
    have husable := Quiet.usable env { w with receiving := none } receiving
    dsimp only
    generalize Worker.usable env { w with receiving := none } receiving = used at husable ⊢
    obtain ⟨w₁, result⟩ := used
    have h₁ : Quiet w w₁ :=
      ⟨⟨husable.options, husable.sentTotal, husable.ackedTotal, husable.consumedTotal, husable.inFlight, husable.out⟩, husable.sending⟩
    cases result with
    | error error => exact h₁.settle _
    | ok served =>
      refine Quiet.settle ?_ _
      exact ⟨⟨h₁.options, h₁.sentTotal, h₁.ackedTotal, h₁.consumedTotal, h₁.inFlight, h₁.out⟩, h₁.sending⟩

end

end Quiet

/-! ## Moves of a worker -/

section Moves

variable {R S : Type}

/-- What the worker relies on: a chunk is no longer than asked for, and a manifest is not empty. -/
structure Surroundings.Sound (env : Surroundings R S) : Prop where
  nextChunk : ∀ call reader max bytes reader', env.nextChunk call reader max = .ok (bytes, reader') → bytes.length ≤ max
  build : ∀ call paths limit files, env.build call paths limit = .ok files → 0 < files.streamBytes

/-- One move of the sending side: a quiet operation, a new transfer from the present offset, a chunk within
the window, or the end of a transfer that is sent. A new transfer has bytes when `full`. -/
inductive Move (full : Prop) (w w' : Worker R S) : Prop
  | quiet (h : Quiet w w')
  | start (s : Sending R) (h : SameFlow w w') (hsending : w'.sending = some s) (hstart : s.start = w.sentTotal)
      (hsent : s.sent = 0) (hended : s.ended = false) (hfull : full → 0 < s.length)
  | chunk (s : Sending R) (source : Source R) (n : Nat) (hsending : w.sending = some s) (hended : s.ended = false)
      (hpos : 0 < n) (hfits : s.sent + n ≤ s.length) (hwindow : w.sentTotal + n ≤ w.ackedTotal + transferWindowBytes)
      (hsending' : w'.sending = some { s with source := source, sent := s.sent + n })
      (hoptions : w'.options = w.options) (hsent : w'.sentTotal = w.sentTotal + n) (hacked : w'.ackedTotal = w.ackedTotal)
      (hconsumed : w'.consumedTotal = w.consumedTotal) (hinFlight : w'.inFlight = w.inFlight)
      (hclosed : w.out.closed = true → w'.out.closed = true)
      (hout : (dataOf w'.out.records = dataOf w.out.records ++ [(s.id, n)] ∧ acksOf w'.out.records = acksOf w.out.records) ∨
        w'.out.closed = true)
  | finish (s : Sending R) (h : SameFlow w w') (hsending : w.sending = some s) (hended : s.ended = false)
      (hsent : s.length ≤ s.sent) (hsending' : w'.sending = some { s with ended := true })

/-- A run of moves. -/
abbrev Moves (full : Prop) : Worker R S → Worker R S → Prop := Relation.ReflTransGen (Move full)

variable {full : Prop} {env : Surroundings R S} {w w' : Worker R S}

theorem Quiet.moves (h : Quiet w w') : Moves full w w' := .single (.quiet h)

theorem Moves.startSending (kind : TransferKind) (source : Source R) (length entries items : Nat) (w : Worker R S)
    (hfull : full → 0 < length) : Moves full w (w.startSending kind source length entries items) := by
  have hbegin : SameFlow w (w.startSending kind source length entries items) := ⟨rfl, rfl, rfl, rfl, rfl, .send _ trivial⟩
  exact .single (.start _ hbegin rfl rfl rfl rfl hfull)

theorem Moves.shareLocal (henv : env.Sound) (w : Worker R S) {copied : CopiedClipboard}
    (hfull : full → w.sharesImages = true → copied ≠ .png []) : Moves full w (w.shareLocal env copied) := by
  have hdrop : Quiet w ((w.cancelSending).dropReceiving env true) := (Quiet.cancelSending w).trans (.dropReceiving env _ true)
  rcases shareLocal_cases env w copied with heq | heq | ⟨value, heq⟩ | ⟨image, himage, hshared, heq⟩ | ⟨paths, heq⟩
  · rw [heq]
  · rw [heq]
    exact hdrop.moves
  · rw [heq]
    exact (hdrop.trans (.queue _ (show Outgoing.Plain (.clipboard value) from trivial))).moves
  · rw [heq]
    refine hdrop.moves.trans (Moves.startSending _ _ _ _ _ _ fun hf => length_pos_iff.2 fun hnil => hfull hf hshared ?_)
    rw [himage, hnil]
  · rw [heq]
    unfold shareFiles
    dsimp only
    generalize (w.cancelSending).dropReceiving env true = w₁ at hdrop ⊢
    have hcall : Quiet w { w₁ with call := w₁.call + 1 } := hdrop.trans ⟨⟨rfl, rfl, rfl, rfl, rfl, .refl _⟩, .inr rfl⟩
    split
    · rename_i files hbuild
      exact hcall.moves.trans (Moves.startSending _ _ _ _ _ _ fun _ => henv.build _ _ _ files hbuild)
    · exact hcall.moves

/-- Reading a chunk changes the number of calls only, and gives no more than asked for. -/
theorem readChunk_spec (henv : env.Sound) (w : Worker R S) (s : Sending R) (room : Nat) :
    Quiet w (w.readChunk env s room).1 ∧ (w.readChunk env s room).1.sending = w.sending ∧
      (w.readChunk env s room).1.out = w.out ∧
      ∀ bytes source, (w.readChunk env s room).2 = .ok (bytes, source) → bytes.length ≤ room := by
  unfold readChunk
  split
  · refine ⟨.refl w, rfl, rfl, fun bytes source h => ?_⟩
    obtain ⟨rfl, -⟩ := Prod.mk.inj (Except.ok.inj h)
    simp only [slice, length_take]
    omega
  · rename_i reader _
    refine ⟨⟨⟨rfl, rfl, rfl, rfl, rfl, .refl _⟩, .inr rfl⟩, rfl, rfl, fun bytes source h => ?_⟩
    cases hchunk : env.nextChunk w.call reader room with
    | error error =>
      rw [hchunk] at h
      cases h
    | ok c =>
      rw [hchunk] at h
      obtain ⟨rfl, -⟩ := Prod.mk.inj (Except.ok.inj h)
      exact henv.nextChunk _ _ _ _ c.2 hchunk

theorem Moves.pumpLoop (henv : env.Sound) : ∀ (fuel : Nat) (w : Worker R S), Moves full w (w.pumpLoop env fuel)
  | 0, _ => .refl
  | fuel + 1, w => by
    unfold Worker.pumpLoop
    split
    · exact .refl
    · rename_i s hs
      split
      · rename_i hguard
        simp only [Bool.and_eq_true, Bool.not_eq_true', decide_eq_true_eq] at hguard
        obtain ⟨hended, hopen⟩ := hguard
        dsimp only
        generalize hroom : min (min (transferWindowBytes - (w.sentTotal - w.ackedTotal)) (s.length - s.sent))
          transferChunkBytes = room
        split
        · -- nothing left to send: the end of the transfer
          rename_i hzero
          have hchunk : 0 < transferChunkBytes := by decide
          refine .single (.finish s ?_ hs hended (by omega) rfl)
          exact ⟨rfl, rfl, rfl, rfl, rfl, .send _ trivial⟩
        · obtain ⟨hquiet, hsending, hout, hlen⟩ := readChunk_spec henv w s room
          generalize w.readChunk env s room = chunk at hquiet hsending hout hlen ⊢
          obtain ⟨w₁, error | ⟨bytes, source⟩⟩ := chunk
          · exact (hquiet.trans (.abortSending w₁)).moves
          · dsimp only at hquiet hsending hout hlen ⊢
            have hle := hlen bytes source rfl
            split
            · exact (hquiet.trans (.abortSending w₁)).moves
            · rename_i hne
              have hpos : 0 < bytes.length := length_pos_iff.2 hne
              have hsent : w₁.sentTotal = w.sentTotal := hquiet.sentTotal
              have hacked : w₁.ackedTotal = w.ackedTotal := hquiet.ackedTotal
              have hrecords := sendOutgoing_records w₁.out (show (Outgoing.transfer (.data s.id bytes)).ackId = none from rfl)
              have hclosed : w₁.out.closed = true → (sendOutgoing w₁.out (.transfer (.data s.id bytes))).1.closed = true :=
                fun h => closed_of_sendOutgoing h _
              generalize sendOutgoing w₁.out _ = sent at hrecords hclosed ⊢
              obtain ⟨out, ok⟩ := sent
              -- the chunk is in the queue, or the queue is closed
              have hdata : (dataOf out.records = dataOf w₁.out.records ++ [(s.id, bytes.length)] ∧
                  acksOf out.records = acksOf w₁.out.records) ∨ out.closed = true := by
                rcases hrecords with hr | hc
                · left
                  rw [hr, dataOf_append, acksOf_append]
                  exact ⟨rfl, append_nil _⟩
                · exact .inr hc
              have hmove : Move full w₁ { w₁ with
                  sending := some { s with source := source, sent := s.sent + bytes.length }
                  sentTotal := w₁.sentTotal + bytes.length, out := out } :=
                .chunk s source bytes.length (hsending.trans hs) hended hpos (by omega) (by rw [hsent, hacked]; omega) rfl rfl
                  rfl rfl rfl rfl hclosed hdata
              cases ok with
              | true => exact (hquiet.moves.tail hmove).trans (Moves.pumpLoop henv fuel _)
              | false => exact hquiet.moves.tail hmove
      · exact .refl

theorem Moves.pump (henv : env.Sound) (w : Worker R S) : Moves full w (w.pump env) := by
  unfold Worker.pump
  split
  · exact .refl
  · exact Moves.pumpLoop henv _ w

/-! ## Applying data -/

/-- `n` bytes of a transfer were consumed and acknowledged. -/
structure Consumed (id n : Nat) (w w' : Worker R S) : Prop where
  options : w'.options = w.options
  sentTotal : w'.sentTotal = w.sentTotal
  ackedTotal : w'.ackedTotal = w.ackedTotal
  consumedTotal : w'.consumedTotal = w.consumedTotal + n
  inFlight : w'.inFlight = w.inFlight - n
  sending : w'.sending = none ∨ w'.sending = w.sending
  out : (dataOf w'.out.records = dataOf w.out.records ∧
    ∀ a ∈ acksOf w'.out.records, a ∈ acksOf w.out.records ∨ a = (id, w.consumedTotal + n)) ∨ w'.out.closed = true

theorem Consumed.quiet {id n : Nat} {w'' : Worker R S} (h : Consumed id n w w') (hq : Quiet w' w'') : Consumed id n w w'' := by
  refine ⟨hq.options.trans h.options, hq.sentTotal.trans h.sentTotal, hq.ackedTotal.trans h.ackedTotal,
    hq.consumedTotal.trans h.consumedTotal, hq.inFlight.trans h.inFlight, ?_, ?_⟩
  · rcases hq.sending with hs | hs
    · exact .inl hs
    · rw [hs]
      exact h.sending
  · rcases h.out with ⟨hd, ha⟩ | hc
    · rcases hq.out.records with ⟨hd', ha'⟩ | hc'
      · rw [hd', ha']
        exact .inl ⟨hd, ha⟩
      · exact .inr hc'
    · exact .inr (hq.out.closed hc)

section

variable (env : Surroundings R S) (w : Worker R S) (id : Nat) (bytes : List Byte)

theorem receiveChunk_flow :
    Quiet w (w.receiveChunk env id bytes).1 ∧ (w.receiveChunk env id bytes).1.out = w.out := by
  unfold receiveChunk
  split
  · exact ⟨.refl w, rfl⟩
  · split
    · exact ⟨.refl w, rfl⟩
    · split
      · exact ⟨⟨⟨rfl, rfl, rfl, rfl, rfl, .refl _⟩, .inr rfl⟩, rfl⟩
      · dsimp only
        split <;> exact ⟨⟨⟨rfl, rfl, rfl, rfl, rfl, .refl _⟩, .inr rfl⟩, rfl⟩

theorem onData_consumed : Consumed id bytes.length w (w.onData env id bytes) := by
  obtain ⟨hquiet, hout⟩ := receiveChunk_flow env w id bytes
  unfold onData
  generalize w.receiveChunk env id bytes = received at hquiet hout ⊢
  obtain ⟨w₁, result⟩ := received
  have hack : Consumed id bytes.length w (queueOp { w₁ with
      inFlight := w₁.inFlight - bytes.length, consumedTotal := w₁.consumedTotal + bytes.length }
        (.ack id (w₁.consumedTotal + bytes.length))) := by
    refine ⟨hquiet.options, hquiet.sentTotal, hquiet.ackedTotal, congrArg (· + bytes.length) hquiet.consumedTotal,
      congrArg (· - bytes.length) hquiet.inFlight, hquiet.sending, ?_⟩
    rw [hout, hquiet.consumedTotal]
    exact sendAck w.out id (w.consumedTotal + bytes.length)
  cases result with
  | ok _ => exact hack
  | error error => exact hack.quiet (.dropReceiving env _ true)

end

end Moves

end Jwm.Remote
