/-
Retirement of clipboard transfers. One that is acknowledged to its last byte before its end was sent is never retired: that
happens to a transfer that fills the window exactly and is acknowledged at once.
-/
import Jwm.Remote.ClipboardWindow

namespace Jwm.Remote

open List Worker BoundedQueue

variable {R S : Type}

/-! ## Careful runs -/

/-- `Session.CarefulLeft` for the end that acts. -/
def Session.Careful (s : Session R S) (e : Side × Action) : Prop :=
  match e.1 with
  | .left => s.CarefulLeft e.2
  | .right => s.swap.CarefulLeft e.2

instance (s : Session R S) : ∀ e : Side × Action, Decidable (s.Careful e)
  | (.left, action) => inferInstanceAs (Decidable (s.CarefulLeft action))
  | (.right, action) => inferInstanceAs (Decidable (s.swap.CarefulLeft action))

/-- The left end does not hold a transfer that ended and is acknowledged to its last byte. -/
def Session.Retired (s : Session R S) : Prop :=
  ∀ t ∈ s.left.worker.sending, ¬ (t.ended = true ∧ s.left.worker.ackedTotal ≥ t.start + t.length)

/-- Moreover both lanes retire their transfers. -/
structure Retires (s : Session R S) : Prop extends Windowed s where
  retiring : s.lane.Retiring
  retiring' : s.swap.lane.Retiring

theorem Retires.swap {s : Session R S} (h : Retires s) : Retires s.swap := ⟨h.toWindowed.swap, h.retiring', h.retiring⟩

theorem Retires.new (left right : SyncOptions) : Retires (Session.new left right : Session R S) :=
  ⟨.new left right, nofun, nofun⟩

theorem Retires.stepLeft {env : Surroundings R S} (henv : env.Sound) {s : Session R S} (h : Retires s) {action : Action}
    (hcareful : s.CarefulLeft action) : Retires (s.stepLeft env action).1 := by
  have hsim : Simulated True s (s.stepLeft env action).1 := stepLeft_simulated henv h.admitted fun _ => hcareful
  exact ⟨h.toWindowed.stepLeft henv action, h.retiring.steps h.right hsim.sender, h.retiring'.steps h.left hsim.receiver⟩

theorem Retires.retired {s : Session R S} (h : Retires s) : s.Retired := by
  rintro t ht ⟨_, hcovered⟩
  have hacked := (h.retiring t.transfer (Option.mem_map_of_mem _ ht)).acked
  exact Nat.not_le_of_lt hacked hcovered

/-- In every run whose steps are all careful, no end ever holds a transfer that ended and is acknowledged to
its last byte. -/
theorem transfers_retired {envs : Side → Surroundings R S} (henvs : ∀ side, (envs side).Sound) (left right : SyncOptions)
    {es : List (Side × Action)} (hes : Along Session.Careful (Session.step envs) (Session.new left right) es) :
    (after (Session.step envs) (Session.new left right) es).Retired ∧
      (after (Session.step envs) (Session.new left right) es).swap.Retired := by
  have keep : ∀ (done : List ((Side × Action) × Except String Unit)) (s : Session R S) (e : Side × Action),
      s.Careful e → Retires s → Retires (s.step envs e).1 := by
    rintro _ s ⟨side, action⟩ hcareful hs
    cases side with
    | left => exact hs.stepLeft (henvs .left) hcareful
    | right => exact (hs.swap.stepLeft (henvs .right) hcareful).swap
  have run := trace_invariant_along keep (Retires.new left right) hes
  exact ⟨run.retired, run.swap.retired⟩

/-- An image crosses, is acknowledged and retired. -/
theorem transfers_retired_one_image :
    Along Session.Careful (Session.step fun _ => plainSurroundings) (Session.new imagesOnly imagesOnly)
      (copyAcross [1, 2, 3] ++ acknowledged) ∧
    (after (Session.step fun _ => plainSurroundings) (Session.new imagesOnly imagesOnly) (copyAcross [1, 2, 3] ++ acknowledged)).Retired := by
  have hes : Along Session.Careful (Session.step fun _ => plainSurroundings) (Session.new imagesOnly imagesOnly)
      (copyAcross [1, 2, 3] ++ acknowledged) := by decide +kernel
  exact ⟨hes, (transfers_retired (fun _ => plainSurroundings_sound) imagesOnly imagesOnly hes).1⟩

/-! ## Single steps -/

section Pump

variable {R S : Type} {env : Surroundings R S} {w : Worker R S} {s : Sending R}

theorem pump_eq (hs : w.sending = some s) : w.pump env = w.pumpLoop env (s.length - s.sent + 1) := by
  rw [Worker.pump, hs]

section

variable (fuel : Nat) (hs : w.sending = some s) (hended : s.ended = false) (hopen : w.sentTotal - w.ackedTotal < transferWindowBytes)
include hs hended hopen

theorem pumpLoop_chunk {room : Nat} {w₁ : Worker R S} {bytes : List Byte} {source : Source R} {out : BoundedQueue Outgoing}
    (hroom : min (min (transferWindowBytes - (w.sentTotal - w.ackedTotal)) (s.length - s.sent)) transferChunkBytes = room)
    (hpos : room ≠ 0) (hread : w.readChunk env s room = (w₁, .ok (bytes, source))) (hbytes : bytes ≠ [])
    (hsend : sendOutgoing w₁.out (.transfer (.data s.id bytes)) = (out, true)) :
    w.pumpLoop env (fuel + 1) = pumpLoop env fuel { w₁ with
      sending := some { s with source := source, sent := s.sent + bytes.length }
      sentTotal := w₁.sentTotal + bytes.length, out := out } := by
  rw [pumpLoop, hs]
  dsimp only
  rw [if_pos (by simp [hended, hopen]), hroom, if_neg hpos, hread]
  dsimp only
  rw [if_neg hbytes, hsend]

theorem pumpLoop_finish (hsent : s.length ≤ s.sent) :
    w.pumpLoop env (fuel + 1) = queueOp { w with sending := some { s with ended := true } } (.finish s.id) := by
  rw [pumpLoop, hs]
  dsimp only
  rw [if_pos (by simp [hended, hopen]), if_pos (by omega)]

end

theorem pumpLoop_full (fuel : Nat) (hfull : transferWindowBytes ≤ w.sentTotal - w.ackedTotal) : w.pumpLoop env fuel = w := by
  cases fuel with
  | zero => rfl
  | succ fuel =>
    rw [pumpLoop]
    split
    · rfl
    · rw [if_neg]
      simp only [Bool.and_eq_true, decide_eq_true_eq, not_and, Nat.not_lt]
      exact fun _ => hfull

end Pump

theorem sendOutgoing_holding {maxRecords maxBytes : Nat} {entries kept : List (Outgoing × Nat)} (record : Outgoing)
    (hkept : entries.filter (fun e => !(record.ackId.isSome && e.1.ackId == record.ackId)) = kept)
    (hrecords : kept.length < maxRecords) (hbytes : (kept.map Prod.snd).sum + record.size ≤ maxBytes) :
    sendOutgoing (.holding maxRecords maxBytes entries) record = (.holding maxRecords maxBytes (kept ++ [(record, record.size)]), true) :=
  push_holding record hkept hrecords hbytes

section Steps

variable {R S : Type} {env : Surroundings R S} {right : End R S} {toRight toLeft : List Outgoing} {maxRecords maxBytes size : Nat}

variable {envs : Side → Surroundings R S}

theorem step_left {s : Session R S} {action : Action} :
    (s.step envs (.left, action)).1 = (s.stepLeft (envs .left) action).1 := rfl

open Session

theorem step_right {action : Action} (left right : End R S) (toRight toLeft : List Outgoing) :
    (Session.step envs ⟨left, right, toRight, toLeft⟩ (.right, action)).1 =
      (stepLeft (envs .right) ⟨right, left, toLeft, toRight⟩ action).1.swap := rfl

variable {reading : Bool}

theorem stepLeft_apply_holding {w : Worker R S} {command : Command} {entries : List (Command × Nat)} :
    (stepLeft env ⟨⟨w, .holding maxRecords maxBytes ((command, size) :: entries), reading⟩, right, toRight, toLeft⟩ .apply).1 =
      ⟨⟨w.apply env command, .holding maxRecords maxBytes entries, reading⟩, right, toRight, toLeft⟩ := by
  simp only [stepLeft, pop_holding]

variable {q : BoundedQueue Command}

theorem stepLeft_copied {w : Worker R S} {copied : CopiedClipboard} :
    (stepLeft env ⟨⟨w, q, reading⟩, right, toRight, toLeft⟩ (.copy copied)).1 =
      ⟨⟨w, (sendCommand q (.local copied)).1, reading⟩, right, toRight, toLeft⟩ := rfl

theorem stepLeft_pump {w : Worker R S} :
    (stepLeft env ⟨⟨w, q, reading⟩, right, toRight, toLeft⟩ .pump).1 = ⟨⟨w.pump env, q, reading⟩, right, toRight, toLeft⟩ := rfl

theorem stepLeft_drain_holding {w : Worker R S} {record : Outgoing}
    {entries : List (Outgoing × Nat)} (hout : w.out = .holding maxRecords maxBytes ((record, size) :: entries)) :
    (stepLeft env ⟨⟨w, q, reading⟩, right, toRight, toLeft⟩ .drain).1 =
      ⟨⟨{ w with out := .holding maxRecords maxBytes entries }, q, reading⟩, right, toRight ++ [record], toLeft⟩ := by
  simp only [stepLeft, hout, pop_holding]

theorem stepLeft_deliver_ok {e e' : End R S} {record : Outgoing} (h : e.deliverRecord record = (e', .ok ()))
    (hreading : e.reading = true) (hreading' : e'.reading = true) :
    (stepLeft env ⟨e, right, toRight, record :: toLeft⟩ .deliver).1 = ⟨e', right, toRight, toLeft⟩ := by
  obtain ⟨w', q', reading'⟩ := e'
  obtain rfl : reading' = true := hreading'
  simp only [stepLeft, hreading, h]
  rfl

theorem after_drain (w : Worker R S) (q : BoundedQueue Command) (reading : Bool) (right : End R S)
    (toLeft : List Outgoing) : ∀ (entries : List (Outgoing × Nat)) (toRight : List Outgoing),
    after (Session.step envs) ⟨⟨{ w with out := .holding maxRecords maxBytes entries }, q, reading⟩, right, toRight, toLeft⟩
      (replicate entries.length (.left, .drain)) =
      ⟨⟨{ w with out := .holding maxRecords maxBytes [] }, q, reading⟩, right, toRight ++ entries.map Prod.fst, toLeft⟩
  | [], toRight => by
    rw [map_nil, append_nil]
    rfl
  | (record, size) :: entries, toRight => by
    rw [map_cons, append_cons, length_cons, replicate_succ, after, step_left, stepLeft_drain_holding rfl]
    exact after_drain w q reading right toLeft entries (toRight ++ [record])

end Steps

section FullWindow

def FullChunk : Type := { bytes : List Byte // bytes.length = 131072 }

variable {c : FullChunk}

theorem FullChunk.ne_nil : c.1 ≠ [] := by
  intro h
  have := c.2
  rw [h] at this
  cases this

def FullChunk.times (c : FullChunk) (k : Nat) : List Byte := (List.replicate k c.1).flatten

open FullChunk

theorem FullChunk.times_add (k n : Nat) : c.times (k + n) = c.times k ++ c.times n := by
  rw [times, replicate_add, flatten_append, times, times]

theorem FullChunk.times_one : c.times 1 = c.1 := by simp [times]

theorem FullChunk.length_times (k : Nat) : (c.times k).length = k * 131072 := by simp [times, c.2]

variable {k : Nat}

theorem FullChunk.slice_times (hk : k < 8) : slice (c.times 8) (k * 131072) (k * 131072 + 131072) = c.1 := by
  have hsplit : c.times 8 = c.times k ++ (c.1 ++ c.times (7 - k)) := by
    rw [← times_one, ← times_add, ← times_add]
    congr 1
    omega
  rw [hsplit, slice_append_right (Nat.le_of_eq (length_times k)), length_times, Nat.sub_self, Nat.add_sub_cancel_left]
  exact slice_append_self c.2.symm

def windowBegin : TransferOp := .begin 1 .image 1048576 0 1

/-- What the left end has queued after `k` chunks. -/
def windowRecords (c : FullChunk) (k : Nat) : List (Outgoing × Nat) :=
  (.transfer windowBegin, 32) :: List.replicate k (.transfer (.data 1 c.1), 131077)

/-- The transfer after `k` chunks. -/
def windowSending (c : FullChunk) (k : Nat) : Sending Unit := ⟨1, .image (c.times 8), 1048576, 0, k * 131072, false⟩

/-- The left worker after `k` chunks. -/
def windowSender (c : FullChunk) (k : Nat) : Worker Unit Unit :=
  { (Worker.new imagesOnly : Worker Unit Unit) with
    nextId := 2
    sending := some (windowSending c k)
    sentTotal := k * 131072
    out := .holding outgoingQueueRecords outgoingQueueBytes (windowRecords c k) }

theorem windowSender_new :
    (Worker.new imagesOnly : Worker Unit Unit).apply plainSurroundings (.local (.png (c.times 8))) = windowSender c 0 := by
  show (Worker.new imagesOnly : Worker Unit Unit).startSending .image (.image (c.times 8)) (c.times 8).length 0 1 = _
  rw [length_times]
  rfl

theorem windowSender_chunk (hk : k < 8) (fuel : Nat) :
    (windowSender c k).pumpLoop plainSurroundings (fuel + 1) = (windowSender c (k + 1)).pumpLoop plainSurroundings fuel := by
  have hsent : sendOutgoing (.holding outgoingQueueRecords outgoingQueueBytes (windowRecords c k)) (.transfer (.data 1 c.1)) =
      (.holding outgoingQueueRecords outgoingQueueBytes (windowRecords c (k + 1)), true) := by
    have hkept : (windowRecords c k).filter (fun e => !((Outgoing.ackId (.transfer (.data 1 c.1))).isSome &&
        e.1.ackId == Outgoing.ackId (.transfer (.data 1 c.1)))) = windowRecords c k :=
      filter_eq_self.2 fun _ _ => rfl
    have hnext : windowRecords c (k + 1) = windowRecords c k ++ [(.transfer (.data 1 c.1), 5 + c.1.length)] := by
      rw [windowRecords, replicate_succ', c.2]
      rfl
    rw [hnext]
    refine sendOutgoing_holding _ hkept ?_ ?_
    · simp [windowRecords, outgoingQueueRecords]
      omega
    · rw [show Outgoing.size (.transfer (.data 1 c.1)) = 5 + c.1.length from rfl, c.2]
      simp [windowRecords, outgoingQueueBytes, transferWindowBytes]
      omega
  have hs : (windowSender c k).sending = some (windowSending c k) := rfl
  have hopen : (windowSender c k).sentTotal - (windowSender c k).ackedTotal < transferWindowBytes := by
    show k * 131072 - 0 < 1024 * 1024
    omega
  have hroom : min (min (transferWindowBytes - ((windowSender c k).sentTotal - (windowSender c k).ackedTotal))
      ((windowSending c k).length - (windowSending c k).sent)) transferChunkBytes = 131072 := by
    show min (min (1024 * 1024 - (k * 131072 - 0)) (1048576 - k * 131072)) (128 * 1024) = 131072
    omega
  have hread : (windowSender c k).readChunk plainSurroundings (windowSending c k) 131072 =
      (windowSender c k, .ok (c.1, .image (c.times 8))) := by
    show (windowSender c k, Except.ok (slice (c.times 8) (k * 131072) (k * 131072 + 131072), Source.image (c.times 8))) = _
    rw [slice_times hk]
  rw [pumpLoop_chunk fuel hs rfl hopen hroom (by decide) hread ne_nil hsent, c.2]
  simp only [windowSender, windowSending, Nat.succ_mul]

theorem windowSender_pump : (windowSender c 0).pump plainSurroundings = windowSender c 8 := by
  have pumped : ∀ k fuel, k ≤ 8 → (windowSender c 0).pumpLoop plainSurroundings (fuel + k) = (windowSender c k).pumpLoop plainSurroundings fuel := by
    intro k
    induction k with
    | zero => exact fun _ _ => rfl
    | succ k ih =>
      intro fuel hk
      rw [← Nat.add_assoc, Nat.add_right_comm, ih (fuel + 1) (by omega), windowSender_chunk (by omega)]
  have hfuel : (windowSending c 0).length - (windowSending c 0).sent + 1 = 1048569 + 8 := rfl
  rw [pump_eq (show (windowSender c 0).sending = some (windowSending c 0) from rfl), hfuel, pumped 8 _ (Nat.le_refl _),
    pumpLoop_full _ (Nat.le_refl _)]

/-! The right end. -/

/-- The right end's commands after `k` chunks were delivered. -/
def windowCommands (c : FullChunk) (k : Nat) : List (Command × Nat) :=
  (.peer windowBegin, 32) :: List.replicate k (.peer (.data 1 c.1), 131072)

def windowInbox (c : FullChunk) (k : Nat) : End Unit Unit :=
  ⟨{ (Worker.new imagesOnly : Worker Unit Unit) with inFlight := k * 131072 },
    .holding commandQueueRecords commandQueueBytes (windowCommands c k), true⟩

theorem windowInbox_deliver (hk : k < 8) :
    (windowInbox c k).deliverRecord (.transfer (.data 1 c.1)) = (windowInbox c (k + 1), .ok ()) := by
  have hsent : sendCommand (.holding commandQueueRecords commandQueueBytes (windowCommands c k)) (.peer (.data 1 c.1)) =
      (.holding commandQueueRecords commandQueueBytes (windowCommands c (k + 1)), true) := by
    have hnext : windowCommands c (k + 1) = windowCommands c k ++ [(.peer (.data 1 c.1), c.1.length)] := by
      rw [windowCommands, replicate_succ', c.2]
      rfl
    rw [hnext]
    have hkept : (windowCommands c k).filter (fun e => !(Command.isLocal (.peer (.data 1 c.1)) && e.1.isLocal)) =
        windowCommands c k := filter_eq_self.2 fun _ _ => rfl
    show BoundedQueue.push _ _ c.1.length (fun old => Command.isLocal (.peer (.data 1 c.1)) && old.isLocal) = _
    refine push_holding _ hkept ?_ ?_
    · simp [windowCommands, commandQueueRecords]
      omega
    · rw [c.2]
      simp [windowCommands, commandQueueBytes, maxSharedImageBytes, transferWindowBytes]
      omega
  have hvalid : imagesOnly.validatePeerOp (.data 1 c.1) = .ok () := rfl
  have hfits : ¬ (k * 131072 + c.1.length > transferWindowBytes) := by
    rw [c.2]
    simp only [transferWindowBytes]
    omega
  show (windowInbox c k).deliverOp (.data 1 c.1) = _
  unfold End.deliverOp
  rw [show (windowInbox c k).worker.options = imagesOnly from rfl, hvalid]
  dsimp only
  rw [show (windowInbox c k).worker.inFlight = k * 131072 from rfl, if_neg hfits]
  unfold End.post
  rw [show (windowInbox c k).commands = .holding commandQueueRecords commandQueueBytes (windowCommands c k) from rfl, hsent]
  simp only [windowInbox, c.2, Nat.succ_mul]

/-- The acknowledgement that waits after `k` chunks. -/
def windowAck : Nat → List (Outgoing × Nat)
  | 0 => []
  | k + 1 => [(.transfer (.ack 1 ((k + 1) * 131072)), 32)]

/-- The right worker after it consumed `k` chunks. -/
def windowReceiver (c : FullChunk) (k : Nat) : Worker Unit Unit :=
  { (Worker.new imagesOnly : Worker Unit Unit) with
    inFlight := (8 - k) * 131072
    nextToken := 2
    receiving := some ⟨1, 1, .image (c.times k), 1048576, k * 131072⟩
    pendingToken := some 1
    consumedTotal := k * 131072
    call := 1
    requests := [(.announce 1 .png, true)]
    out := .holding outgoingQueueRecords outgoingQueueBytes (windowAck k) }

theorem windowReceiver_begin : (windowInbox c 8).worker.apply plainSurroundings (.peer windowBegin) = windowReceiver c 0 := rfl

theorem windowReceiver_data (hk : k < 8) :
    (windowReceiver c k).apply plainSurroundings (.peer (.data 1 c.1)) = windowReceiver c (k + 1) := by
  have hsent : sendOutgoing (.holding outgoingQueueRecords outgoingQueueBytes (windowAck k)) (.transfer (.ack 1 ((k + 1) * 131072))) =
      (.holding outgoingQueueRecords outgoingQueueBytes (windowAck (k + 1)), true) := by
    have hkept : (windowAck k).filter (fun e => !((Outgoing.ackId (.transfer (.ack 1 ((k + 1) * 131072)))).isSome &&
        e.1.ackId == Outgoing.ackId (.transfer (.ack 1 ((k + 1) * 131072))))) = [] := by
      cases k <;> rfl
    exact sendOutgoing_holding _ hkept (by decide) (show 0 + 32 ≤ outgoingQueueBytes by decide)
  have hreceive : (windowReceiver c k).receiveChunk plainSurroundings 1 c.1 =
      ({ windowReceiver c k with receiving := some ⟨1, 1, .image (c.times (k + 1)), 1048576, (k + 1) * 131072⟩ }, .ok ()) := by
    have hfits : ¬ (k * 131072 + c.1.length > 1048576) := by
      rw [c.2]
      omega
    unfold receiveChunk
    rw [show (windowReceiver c k).receiving.filter (·.id = 1) = some ⟨1, 1, .image (c.times k), 1048576, k * 131072⟩ from rfl]
    dsimp only
    rw [if_neg hfits, times_add, times_one, c.2, Nat.succ_mul]
  have hpeer : (windowReceiver c k).apply plainSurroundings (.peer (.data 1 c.1)) =
      (windowReceiver c k).onData plainSurroundings 1 c.1 := rfl
  rw [hpeer, onData, hreceive]
  have hinFlight : (8 - k) * 131072 - c.1.length = (8 - (k + 1)) * 131072 := by
    rw [c.2]
    omega
  have hconsumed : k * 131072 + c.1.length = (k + 1) * 131072 := by
    rw [c.2]
    omega
  simp only [windowReceiver, queueOp, queue, hconsumed, hsent, hinFlight]

/-! The session. -/

/-- The left worker once all its records are on the link. -/
def windowSent (c : FullChunk) : Worker Unit Unit := { windowSender c 8 with out := .holding outgoingQueueRecords outgoingQueueBytes [] }

def windowLeft (w : Worker Unit Unit) : End Unit Unit := ⟨w, .holding commandQueueRecords commandQueueBytes [], true⟩

/-- The image is copied and sent: the window is full before the end of the transfer can be queued. -/
theorem window_sent : after (Session.step fun _ => plainSurroundings) (Session.new imagesOnly imagesOnly)
    [(.left, .copy (.png (c.times 8))), (.left, .apply), (.left, .pump)] =
      ⟨windowLeft (windowSender c 8), .new imagesOnly, [], []⟩ := by
  have hcopy : sendCommand (.new commandQueueRecords commandQueueBytes) (.local (.png (c.times 8))) =
      (.holding commandQueueRecords commandQueueBytes [(.local (.png (c.times 8)), 1048576)], true) := by
    have hsize : Command.size (.local (.png (c.times 8))) = some 1048576 := by
      show withinBytes (c.times 8).length maxSharedImageBytes = _
      rw [length_times]
      rfl
    have fits : ∀ (value : Command) (replace : Command → Bool),
        (holding commandQueueRecords commandQueueBytes []).push value 1048576 replace =
          (.holding commandQueueRecords commandQueueBytes ([] ++ [(value, 1048576)]), true) :=
      fun value replace => push_holding value rfl (by decide) (by decide)
    unfold sendCommand
    dsimp only
    rw [hsize]
    exact fits _ _
  have hnew : Session.new imagesOnly imagesOnly =
      (⟨⟨.new imagesOnly, .new commandQueueRecords commandQueueBytes, true⟩, .new imagesOnly, [], []⟩ : Session Unit Unit) := rfl
  rw [hnew, after, step_left, stepLeft_copied, hcopy, after, step_left, stepLeft_apply_holding, windowSender_new, after, step_left,
    stepLeft_pump, windowSender_pump, after, windowLeft]

/-- `k` chunks are delivered. -/
def windowDelivering (c : FullChunk) (k : Nat) : Session Unit Unit :=
  ⟨windowLeft (windowSent c), windowInbox c k, List.replicate (8 - k) (.transfer (.data 1 c.1)), []⟩

theorem window_delivered : after (Session.step fun _ => plainSurroundings)
    ⟨windowLeft (windowSent c), .new imagesOnly, .transfer windowBegin :: List.replicate 8 (.transfer (.data 1 c.1)), []⟩
    ((.right, .deliver) :: List.replicate 8 (.right, .deliver)) = ⟨windowLeft (windowSent c), windowInbox c 8, [], []⟩ := by
  have hbegin : (End.new imagesOnly : End Unit Unit).deliverRecord (.transfer windowBegin) = (windowInbox c 0, .ok ()) := rfl
  have hchunk : ∀ k < 8, (Session.step (fun _ => plainSurroundings) (windowDelivering c (0 + k)) (.right, .deliver)).1 =
      windowDelivering c (0 + k + 1) := by
    intro k hk
    rw [Nat.zero_add, windowDelivering, step_right, show 8 - k = 8 - (k + 1) + 1 by omega, replicate_succ,
      stepLeft_deliver_ok (windowInbox_deliver hk) rfl rfl]
    rfl
  have hdelivered : after (Session.step fun _ => plainSurroundings) (windowDelivering c 0) (replicate 8 (.right, .deliver)) =
      windowDelivering c 8 := after_replicate hchunk
  rw [after, step_right, stepLeft_deliver_ok hbegin rfl rfl]
  exact hdelivered

/-- `k` chunks are consumed. -/
def windowConsuming (c : FullChunk) (k : Nat) : Session Unit Unit :=
  ⟨windowLeft (windowSent c), ⟨windowReceiver c k, .holding commandQueueRecords commandQueueBytes
    (List.replicate (8 - k) (.peer (.data 1 c.1), 131072)), true⟩, [], []⟩

theorem window_consumed : after (Session.step fun _ => plainSurroundings) ⟨windowLeft (windowSent c), windowInbox c 8, [], []⟩
    ((.right, .apply) :: List.replicate 8 (.right, .apply)) = ⟨windowLeft (windowSent c), windowLeft (windowReceiver c 8), [], []⟩ := by
  have hchunk : ∀ k < 8, (Session.step (fun _ => plainSurroundings) (windowConsuming c (0 + k)) (.right, .apply)).1 =
      windowConsuming c (0 + k + 1) := by
    intro k hk
    rw [Nat.zero_add, windowConsuming, step_right, show 8 - k = 8 - (k + 1) + 1 by omega, replicate_succ, stepLeft_apply_holding,
      windowReceiver_data hk]
    rfl
  have hbegin : (windowInbox c 8).worker.apply plainSurroundings (.peer windowBegin) = windowReceiver c 0 := windowReceiver_begin
  rw [windowInbox] at hbegin ⊢
  rw [windowCommands, after, step_right, stepLeft_apply_holding, hbegin]
  exact after_replicate hchunk

/-- The left worker when the one acknowledgement was applied. -/
def windowAcked (c : FullChunk) : Worker Unit Unit := { (windowSent c) with ackedTotal := 1048576 }

/-- The left worker when the end of the transfer was sent. -/
def windowStuck (c : FullChunk) : Worker Unit Unit := { (windowAcked c) with sending := some { windowSending c 8 with ended := true } }

def windowEnded (c : FullChunk) : Worker Unit Unit :=
  { (windowStuck c) with out := .holding outgoingQueueRecords outgoingQueueBytes [(.transfer (.finish 1), 32)] }

theorem windowAcked_pump : (windowAcked c).pump plainSurroundings = (windowEnded c) := by
  have hs : (windowAcked c).sending = some (windowSending c 8) := rfl
  have hopen : (windowAcked c).sentTotal - (windowAcked c).ackedTotal < transferWindowBytes := by
    show 8 * 131072 - 1048576 < 1024 * 1024
    omega
  rw [pump_eq hs, pumpLoop_finish _ hs rfl hopen (Nat.le_refl _)]
  rfl

/-- The right worker when it drained its queue, and when the image was put on the clipboard. -/
def windowReceived (c : FullChunk) : Worker Unit Unit :=
    { windowReceiver c 8 with out := .holding outgoingQueueRecords outgoingQueueBytes [] }

def windowServed (c : FullChunk) : Worker Unit Unit :=
  { (windowReceived c) with
    receiving := none
    pendingToken := none
    lastReceived := some (.png (c.times 8).length)
    call := 2
    requests := [(.announce 1 .png, true), (.fulfilPng 1 (c.times 8), true)] }

theorem windowReceived_finish : (windowReceived c).apply plainSurroundings (.peer (.finish 1)) = (windowServed c) := by
  have hretained : (RemoteServe.fulfilPng 1 (c.times 8)).retainedBytes.isNone = false := by
    show (withinBytes (c.times 8).length maxSharedImageBytes).isNone = false
    rw [length_times]
    rfl
  have husable : usable plainSurroundings { (windowReceived c) with receiving := none }
      ⟨1, 1, .image (c.times 8), 1048576, 8 * 131072⟩ =
      ({ (windowReceived c) with receiving := none }, .ok (.fulfilPng 1 (c.times 8), .png (c.times 8).length)) := rfl
  show (windowReceived c).finishReceiving plainSurroundings 1 = _
  unfold finishReceiving
  rw [show (windowReceived c).receiving.filter (·.id = 1) = some ⟨1, 1, .image (c.times 8), 1048576, 8 * 131072⟩ from rfl]
  dsimp only
  rw [husable]
  dsimp only
  unfold serve
  rw [hretained]
  rfl

theorem window_settled : after (Session.step fun _ => plainSurroundings)
    ⟨windowLeft (windowSent c), windowLeft (windowReceiver c 8), [], []⟩
    [(.right, .drain), (.left, .deliver), (.left, .apply), (.left, .pump), (.left, .drain), (.right, .deliver), (.right, .apply)] =
      ⟨windowLeft (windowStuck c), windowLeft (windowServed c), [], []⟩ := by
  have hack : (windowLeft (windowSent c)).deliverRecord (.transfer (.ack 1 1048576)) =
      (⟨(windowSent c), .holding commandQueueRecords commandQueueBytes [(.peer (.ack 1 1048576), 32)], true⟩, .ok ()) := rfl
  have hacked : (windowSent c).apply plainSurroundings (.peer (.ack 1 1048576)) = (windowAcked c) := rfl
  have hfinish : (windowLeft (windowReceived c)).deliverRecord (.transfer (.finish 1)) =
      (⟨(windowReceived c), .holding commandQueueRecords commandQueueBytes [(.peer (.finish 1), 32)], true⟩, .ok ()) := rfl
  have h₁ : (Session.step (fun _ => plainSurroundings) ⟨windowLeft (windowSent c), windowLeft (windowReceiver c 8), [], []⟩
      (.right, .drain)).1 = ⟨windowLeft (windowSent c), windowLeft (windowReceived c), [], [.transfer (.ack 1 1048576)]⟩ := rfl
  have h₅ : (Session.step (fun _ => plainSurroundings) ⟨windowLeft (windowEnded c), windowLeft (windowReceived c), [], []⟩
      (.left, .drain)).1 = ⟨windowLeft (windowStuck c), windowLeft (windowReceived c), [.transfer (.finish 1)], []⟩ := rfl
  rw [after, h₁, after, step_left, stepLeft_deliver_ok hack rfl rfl, after, step_left, stepLeft_apply_holding, hacked, after, step_left,
    stepLeft_pump, windowAcked_pump]
  show after _ (Session.mk (windowLeft (windowEnded c)) _ _ _) _ = _
  rw [after, h₅, after, step_right, stepLeft_deliver_ok hfinish rfl rfl]
  show after _ (Session.mk _ _ _ _) _ = _
  rw [after, step_right, stepLeft_apply_holding, windowReceived_finish]
  rfl

/-- An image of exactly one window is copied, sent, delivered, consumed, acknowledged at once and ended. -/
def windowRun (c : FullChunk) : List (Side × Action) :=
  ([(.left, .copy (.png (c.times 8))), (.left, .apply), (.left, .pump)] : List (Side × Action)) ++
    (List.replicate 9 (Side.left, Action.drain) ++
      ((.right, .deliver) :: List.replicate 8 (Side.right, Action.deliver) ++
        ((.right, .apply) :: List.replicate 8 (Side.right, Action.apply) ++
          [(Side.right, Action.drain), (.left, .deliver), (.left, .apply), (.left, .pump), (.left, .drain), (.right, .deliver),
            (.right, .apply)])))

theorem after_windowRun (c : FullChunk) :
    after (Session.step fun _ => plainSurroundings) (Session.new imagesOnly imagesOnly) (windowRun c) =
      ⟨windowLeft (windowStuck c), windowLeft (windowServed c), [], []⟩ := by
  have hdrained : after (Session.step fun _ => plainSurroundings) ⟨windowLeft (windowSender c 8), .new imagesOnly, [], []⟩
      (replicate 9 (.left, .drain)) = ⟨windowLeft (windowSent c), .new imagesOnly,
        .transfer windowBegin :: replicate 8 (.transfer (.data 1 c.1)), []⟩ := by
    refine (after_drain (windowSender c 8) (.holding commandQueueRecords commandQueueBytes []) true (.new imagesOnly) []
      (windowRecords c 8) []).trans ?_
    rw [nil_append, windowRecords, map_cons, map_replicate]
    rfl
  rw [windowRun, after_append, window_sent, after_append, hdrained, after_append, window_delivered, after_append, window_consumed,
    window_settled]

/-- The sender is left with a transfer that is over, and nothing is under way that would retire it. -/
theorem full_window_unretired :
    let s := after (Session.step fun _ => plainSurroundings) (Session.new imagesOnly imagesOnly)
      (windowRun ⟨replicate 131072 0, length_replicate⟩)
    ¬ s.Retired ∧ s.left.commands.records = [] ∧ s.right.commands.records = [] ∧ s.left.worker.out.records = [] ∧
      s.right.worker.out.records = [] ∧ s.toRight = [] ∧ s.toLeft = [] := by
  intro s
  have hs : s = ⟨windowLeft (windowStuck _), windowLeft (windowServed _), [], []⟩ := after_windowRun _
  rw [hs]
  refine ⟨fun h => ?_, rfl, rfl, rfl, rfl, rfl, rfl⟩
  exact h { windowSending _ 8 with ended := true } rfl ⟨rfl, Nat.le_refl 1048576⟩

end FullWindow

end Jwm.Remote
