/-
Clipboard flow control over whole sessions: every action of an end is a run of lane steps in both directions.
-/
import Jwm.Remote.ClipboardLane

namespace Jwm.Remote

open List BoundedQueue

variable {R S : Type}

/-! ## Actions as lane steps -/

def Session.lane (s : Session R S) : Lane Nat := Remote.lane s.left s.right s.toRight s.toLeft

/-- The peer's operations in the command queue are ones that were negotiated. -/
def End.Admitted (e : End R S) : Prop :=
  ∀ op, .peer op ∈ e.commands.records → e.worker.options.validatePeerOp op = .ok ()

/-- The command is no empty image that is shared, and no acknowledgement that covers the outgoing transfer before its
end was queued. -/
def Command.Careful (w : Worker R S) : Command → Prop
  | .peer (.ack _ consumed) => ∀ t ∈ w.sending, t.ended = false → consumed < t.start + t.length
  | .local copied => w.sharesImages = true → copied ≠ .png []
  | _ => True

instance (w : Worker R S) : ∀ command : Command, Decidable (command.Careful w)
  | .peer (.ack _ consumed) => inferInstanceAs (Decidable (∀ t ∈ w.sending, t.ended = false → consumed < t.start + t.length))
  | .local copied => inferInstanceAs (Decidable (w.sharesImages = true → copied ≠ .png []))
  | .peer (.begin ..) | .peer (.data ..) | .peer (.finish ..) | .peer (.cancel ..) | .peer (.refuse ..) => isTrue trivial
  | .localClosed | .peerText _ | .stop => isTrue trivial

def Session.CarefulLeft (s : Session R S) (action : Action) : Prop :=
  action = .apply → ∀ next ∈ s.left.commands.pop, next.1.Careful s.left.worker

instance (s : Session R S) (action : Action) : Decidable (s.CarefulLeft action) :=
  inferInstanceAs (Decidable (action = .apply → ∀ next ∈ s.left.commands.pop, next.1.Careful s.left.worker))

/-- The two lanes after an action of the left end, and its queue. -/
structure Simulated (careful : Prop) (s s' : Session R S) : Prop where
  sender : s.lane.Steps transferWindowBytes careful s'.lane
  receiver : s.swap.lane.Steps transferWindowBytes careful s'.swap.lane
  admitted : s'.left.Admitted
  right : s'.right = s.right

section Step

variable {careful : Prop} {env : Surroundings R S} {s : Session R S}

theorem Simulated.refl (h : s.left.Admitted) : Simulated careful s s := ⟨.refl, .refl, h, rfl⟩

theorem Simulated.moves {w : Worker R S} (h : s.left.Admitted) (hmoves : Moves careful s.left.worker w) :
    Simulated careful s { s with left.worker := w } := by
  refine ⟨hmoves.sender s.left s.right s.toRight s.toLeft, hmoves.receiver s.left s.right s.toLeft s.toRight, ?_, rfl⟩
  intro op hop
  rw [hmoves.options]
  exact h op hop

theorem Simulated.close {q : BoundedQueue Command} (hclosed : q.closed = true) :
    Simulated careful s { s with left.commands := q } := by
  have hnil := records_of_closed hclosed
  refine ⟨.single (.lose ?_), .single (.close ?_), ?_, rfl⟩
  · refine ⟨rfl, rfl, rfl, rfl, rfl, .refl _, rfl, fun a ha => ?_, .inr rfl⟩
    simp only [Session.lane, Remote.lane, hnil] at ha
    exact mem_append_left _ (by simpa [queuedAcks] using ha)
  · refine ⟨rfl, rfl, rfl, rfl, ?_, .refl _, ?_, fun _ ha => ha, .inr rfl⟩
    · show (!q.closed) = false
      rw [hclosed]
      rfl
    · show queuedData q.records = []
      rw [hnil]
      rfl
  · intro op hop
    rw [show (Session.left { s with left.commands := q }).commands.records = [] from hnil] at hop
    cases hop

theorem Simulated.exit {w : Worker R S} (h : s.left.Admitted) (hmoves : Moves careful s.left.worker w) :
    Simulated careful s { s with left.worker := w, left.commands := s.left.commands.close } := by
  have hmoved := Simulated.moves h hmoves
  have hclosed : Simulated careful { s with left.worker := w }
      { s with left.worker := w, left.commands := s.left.commands.close } := .close rfl
  exact ⟨hmoved.sender.trans hclosed.sender, hmoved.receiver.trans hclosed.receiver, hclosed.admitted, rfl⟩

open Session

theorem stepLeft_copy (h : s.left.Admitted) (copied : CopiedClipboard) :
    Simulated careful s (s.stepLeft env (.copy copied)).1 := by
  rcases sendCommand_cases s.left.commands (.local copied) with ⟨_, hposted⟩ | ⟨_, hclosed⟩
  · have hdata : queuedData (sendCommand s.left.commands (.local copied)).1.records = queuedData s.left.commands.records :=
      hposted.data.trans (append_nil _)
    have hacks : queuedAcks (sendCommand s.left.commands (.local copied)).1.records = queuedAcks s.left.commands.records :=
      hposted.acks.trans (append_nil _)
    refine ⟨.single (.lose ?_), .single (.lose ?_), ?_, rfl⟩
    · refine ⟨rfl, rfl, rfl, rfl, rfl, .refl _, rfl, fun a ha => ?_, .inr rfl⟩
      simp only [Session.lane, Remote.lane, stepLeft, hacks] at ha
      exact ha
    · refine ⟨rfl, rfl, rfl, rfl, ?_, .refl _, hdata, fun _ ha => ha, .inr rfl⟩
      show (!(sendCommand s.left.commands (.local copied)).1.closed) = !s.left.commands.closed
      rw [hposted.closed, hposted.closed']
    · intro op hop
      rcases hposted.mem _ hop with hop | hop
      · exact h op hop
      · cases hop
  · exact .close hclosed

theorem stepLeft_apply (henv : env.Sound) (h : s.left.Admitted) (hcareful : careful → s.CarefulLeft .apply) :
    Simulated careful s (s.stepLeft env .apply).1 := by
  unfold stepLeft
  cases hpop : s.left.commands.pop with
  | none => exact .refl h
  | some popped =>
    obtain ⟨command, commands⟩ := popped
    obtain ⟨hrecords, hclosed, _⟩ := pop_eq_some hpop
    have hcommand : careful → command.Careful s.left.worker := fun hc => hcareful hc rfl (command, commands) hpop
    have happlied : Applied careful command s.left.worker (s.left.worker.apply env command) := by
      refine apply_applied henv s.left.worker (fun op hop => h op ?_) fun hc copied hcopied => ?_
      · rw [hrecords, hop]
        exact .head _
      · subst hcopied
        exact hcommand hc
    have hack : careful → ∀ id consumed, command = .peer (.ack id consumed) →
        ∀ t ∈ s.left.worker.sending, t.ended = false → consumed < t.start + t.length := by
      intro hc id consumed heq
      subst heq
      exact hcommand hc
    refine ⟨happlied.sender hrecords hack _ s.right s.toRight s.toLeft,
      happlied.receiver hrecords hclosed _ s.right s.toLeft s.toRight, ?_, rfl⟩
    intro op hop
    rw [happlied.options]
    refine h op ?_
    rw [hrecords]
    exact .tail _ hop

theorem stepLeft_drain (h : s.left.Admitted) : Simulated careful s (s.stepLeft env .drain).1 := by
  unfold stepLeft
  cases hpop : s.left.worker.out.pop with
  | none => exact .refl h
  | some popped =>
    obtain ⟨record, out⟩ := popped
    obtain ⟨hrecords, _, _⟩ := pop_eq_some hpop
    refine ⟨.single (.lose ?_), .single (.lose ?_), h, rfl⟩
    · refine ⟨rfl, rfl, rfl, rfl, rfl, ?_, rfl, fun _ ha => ha, .inr rfl⟩
      show (dataOf (s.toRight ++ [record]) ++ dataOf out.records).Sublist (dataOf s.toRight ++ dataOf s.left.worker.out.records)
      rw [hrecords, ← dataOf_append, ← dataOf_append, ← append_cons]
    · refine ⟨rfl, rfl, rfl, rfl, rfl, .refl _, rfl, fun a ha => ?_, .inr rfl⟩
      show a ∈ acksOf s.left.worker.out.records ++ acksOf s.toRight ++ queuedAcks s.right.commands.records
      have ha' : a ∈ acksOf out.records ++ acksOf (s.toRight ++ [record]) ++ queuedAcks s.right.commands.records := ha
      have hsplit : acksOf s.left.worker.out.records = acksOf [record] ++ acksOf out.records := by
        rw [hrecords]
        exact acksOf_append [record] out.records
      rw [hsplit]
      simp only [acksOf_append, mem_append] at ha' ⊢
      tauto

theorem stepLeft_deliver (h : s.left.Admitted) : Simulated careful s (s.stepLeft env .deliver).1 := by
  unfold stepLeft
  cases hreading : s.left.reading with
  | false => exact .refl h
  | true =>
    cases hlink : s.toLeft with
    | nil => exact .refl h
    | cons record toLeft =>
      have hdelivered := deliverRecord_delivered s.left record
      dsimp only
      generalize s.left.deliverRecord record = delivered at hdelivered ⊢
      obtain ⟨left, answer⟩ := delivered
      refine ⟨?_, ?_, ?_, rfl⟩
      · have hsender := hdelivered.sender s.right s.toRight toLeft
        rw [← hlink] at hsender
        exact .single (.lose hsender)
      · have hreceiver : (Remote.lane s.right s.left (record :: toLeft) s.toRight).Steps transferWindowBytes careful _ :=
          hdelivered.receiver s.right toLeft s.toRight
        rw [← hlink] at hreceiver
        exact hreceiver
      · intro op hop
        cases hdelivered with
        | rejected heq =>
          rw [show left = s.left from heq] at hop ⊢
          exact h op hop
        | closed hclosed _ =>
          rw [show (Session.left { s with left := { left with reading := answer.isOk }, toLeft := toLeft }).commands.records = []
            from records_of_closed hclosed] at hop
          cases hop
        | queued command hposted hadmitted _ _ hworker =>
          have hoptions : left.worker.options = s.left.worker.options := by rw [show left.worker = _ from hworker]
          rw [hoptions]
          rcases hposted.mem _ hop with hop | hop
          · exact h op hop
          · exact hadmitted op hop.symm

theorem Quiet.closeOut (w : Worker R S) : Quiet w { w with out := w.out.close } :=
  ⟨⟨rfl, rfl, rfl, rfl, rfl, .close _⟩, .inr rfl⟩

theorem Quiet.cleanup (env : Surroundings R S) (w : Worker R S) : Quiet w (w.cleanup env) := by
  unfold Worker.cleanup
  dsimp only
  split <;> exact ⟨⟨rfl, rfl, rfl, rfl, rfl, .refl _⟩, .inl rfl⟩

theorem stepLeft_simulated (henv : env.Sound) (h : s.left.Admitted) {action : Action}
    (hcareful : careful → s.CarefulLeft action) : Simulated careful s (s.stepLeft env action).1 := by
  cases action with
  | copy copied => exact stepLeft_copy h copied
  | pump => exact .moves h (Moves.pump henv s.left.worker)
  | apply => exact stepLeft_apply henv h hcareful
  | drain => exact stepLeft_drain h
  | deliver => exact stepLeft_deliver h
  | stop => exact .close rfl
  | disconnect => exact .moves h (Quiet.closeOut s.left.worker).moves
  | exit => exact .exit h ((Quiet.closeOut s.left.worker).trans (.cleanup env _)).moves

end Step

/-! ## Runs -/

/-- Both directions keep their window, and both command queues hold what was negotiated. -/
structure Windowed (s : Session R S) : Prop where
  right : s.lane.Flow transferWindowBytes
  left : s.swap.lane.Flow transferWindowBytes
  admitted : s.left.Admitted
  admitted' : s.right.Admitted

section Run

variable {envs : Side → Surroundings R S}

theorem Windowed.swap {s : Session R S} (h : Windowed s) : Windowed s.swap := ⟨h.left, h.right, h.admitted', h.admitted⟩

theorem Windowed.new (left right : SyncOptions) : Windowed (Session.new left right : Session R S) := by
  refine ⟨⟨?_, ?_, ?_, ?_, ?_, ?_⟩, ⟨?_, ?_, ?_, ?_, ?_, ?_⟩, ?_, ?_⟩
  all_goals first
    | exact Nat.zero_le _
    | exact fun _ => rfl
    | exact fun _ ha => absurd ha not_mem_nil

theorem Windowed.stepLeft {env : Surroundings R S} (henv : env.Sound) {s : Session R S} (h : Windowed s) (action : Action) :
    Windowed (s.stepLeft env action).1 := by
  have hsim : Simulated False s (s.stepLeft env action).1 := stepLeft_simulated henv h.admitted False.elim
  refine ⟨h.right.steps hsim.sender, h.left.steps hsim.receiver, hsim.admitted, ?_⟩
  rw [hsim.right]
  exact h.admitted'

theorem Windowed.step (henvs : ∀ side, (envs side).Sound) {s : Session R S} (h : Windowed s) (e : Side × Action) :
    Windowed (s.step envs e).1 := by
  obtain ⟨side, action⟩ := e
  cases side with
  | left => exact h.stepLeft (henvs .left) action
  | right => exact (h.swap.stepLeft (henvs .right) action).swap

theorem Windowed.stepLeft_answer {env : Surroundings R S} {s : Session R S} (h : Windowed s) (action : Action) :
    (s.stepLeft env action).2 ≠ .error End.exceeded := by
  cases action with
  | deliver =>
    unfold Session.stepLeft
    cases hreading : s.left.reading with
    | false => exact nofun
    | true =>
      cases hlink : s.toLeft with
      | nil => exact nofun
      | cons record toLeft =>
        intro hanswer
        obtain ⟨id, bytes, rfl, hover⟩ := deliverRecord_exceeded hanswer
        have htravelling : s.swap.lane.travelling = (id, bytes.length) :: (dataOf toLeft ++ dataOf s.right.worker.out.records) := by
          show dataOf s.toLeft ++ _ = _
          rw [hlink]
          rfl
        have hfits : s.left.worker.inFlight + bytes.length ≤ transferWindowBytes := h.left.fits htravelling
        omega
  | apply | drain =>
    unfold Session.stepLeft
    dsimp only
    split <;> exact nofun
  | _ => exact nofun

/-- What flow control promises for the direction from left to right. -/
structure InWindow (s : Session R S) : Prop where
  acked_le_sent : s.left.worker.ackedTotal ≤ s.left.worker.sentTotal
  window : s.left.worker.sentTotal - s.left.worker.ackedTotal ≤ transferWindowBytes
  acked_le_consumed : s.left.worker.ackedTotal ≤ s.right.worker.consumedTotal
  consumed_le_sent : s.right.worker.consumedTotal ≤ s.left.worker.sentTotal
  inFlight : s.right.commands.closed = false → s.right.worker.inFlight = chunkBytes (queuedData s.right.commands.records)

theorem Windowed.inWindow {s : Session R S} (h : Windowed s) : InWindow s := by
  have hacked := h.right.acked
  have hconsumed := h.right.consumed_le
  have hwindow := h.right.window
  refine ⟨hacked.trans hconsumed, ?_, hacked, hconsumed, fun hopen => h.right.pending ?_⟩
  · exact Nat.sub_le_iff_le_add'.2 hwindow
  · show (!s.right.commands.closed) = true
    rw [hopen]
    rfl

/-- Flow control holds on both sides of every run, whatever the two ends copy, cancel, refuse or interrupt,
and no data is turned away for exceeding the window. -/
theorem flow_control_holds (henvs : ∀ side, (envs side).Sound) (left right : SyncOptions) (es : List (Side × Action)) :
    InWindow (after (Session.step envs) (Session.new left right) es) ∧
      InWindow (after (Session.step envs) (Session.new left right) es).swap ∧
      .error End.exceeded ∉ answers (Session.step envs) (Session.new left right) es := by
  have keep : ∀ (done : List ((Side × Action) × Except String Unit)) (s : Session R S) (e : Side × Action),
      (Windowed s ∧ ∀ e ∈ done, e.2 ≠ .error End.exceeded) →
        Windowed (s.step envs e).1 ∧ ∀ e' ∈ done ++ [(e, (s.step envs e).2)], e'.2 ≠ .error End.exceeded := by
    rintro done s ⟨side, action⟩ ⟨hs, hdone⟩
    refine ⟨hs.step henvs _, fun e' he' => ?_⟩
    rcases mem_append.1 he' with he' | he'
    · exact hdone e' he'
    · obtain rfl := mem_singleton.1 he'
      cases side with
      | left => exact hs.stepLeft_answer action
      | right => exact hs.swap.stepLeft_answer action
  have run := trace_invariant keep ⟨Windowed.new left right, nofun⟩ es
  refine ⟨run.1.inWindow, run.1.swap.inWindow, fun hanswer => ?_⟩
  obtain ⟨e, he, hexceeded⟩ := List.mem_map.1 hanswer
  exact run.2 e he hexceeded

end Run

/-! ## A session -/

/-- Surroundings without files: every request is served, every image is one. -/
def plainSurroundings : Surroundings Unit Unit where
  serve _ _ := true
  pngHash png := png.length
  imageOfferToPng png := some png
  build _ _ _ := .error "no files"
  nextChunk _ _ _ := .error "no files"
  createStaging _ := .error "no files"
  availableBytes _ := none
  beginStaging _ _ := .error "no files"
  feed _ _ _ := .error "no files"
  finish _ _ := .error "no files"
  humanBytes bytes := toString bytes

theorem plainSurroundings_sound : plainSurroundings.Sound := ⟨nofun, nofun⟩

def imagesOnly : SyncOptions := ⟨true, true, true, false, 0⟩

/-- The left end copies an image, sends all of it and has it delivered; the right end does not get to it. -/
def copyAcross (image : List Byte) : List (Side × Action) :=
  [(.left, .copy (.png image)), (.left, .apply), (.left, .pump)] ++ List.replicate 4 (.left, .drain) ++
    List.replicate 4 (.right, .deliver)

/-- The right end applies what arrived and acknowledges it. -/
def acknowledged : List (Side × Action) :=
  List.replicate 3 (.right, .apply) ++ [(.right, .drain), (.left, .deliver), (.left, .apply)]

/-- One image crosses and is acknowledged. -/
theorem flow_control_holds_one_image :
    let s := after (Session.step fun _ => plainSurroundings) (Session.new imagesOnly imagesOnly)
      (copyAcross [1, 2, 3] ++ acknowledged)
    InWindow s ∧ s.left.worker.sentTotal = 3 ∧ s.left.worker.ackedTotal = 3 ∧ s.right.worker.consumedTotal = 3 :=
  ⟨(flow_control_holds (fun _ => plainSurroundings_sound) imagesOnly imagesOnly _).1, by decide +kernel⟩

/-- Seventeen images overload the command queue, which closes and is emptied while sixteen bytes are counted. -/
theorem inFlight_after_overload :
    let s := after (Session.step fun _ => plainSurroundings) (Session.new imagesOnly imagesOnly)
      (replicate 17 (copyAcross [1])).flatten
    s.right.worker.inFlight = 16 ∧ chunkBytes (queuedData s.right.commands.records) = 0 := by
  decide +kernel

end Jwm.Remote
