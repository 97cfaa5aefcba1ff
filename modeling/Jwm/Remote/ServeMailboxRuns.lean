/-
The mailbox over whole runs. The counter is the sum of the queued sizes, requests come out in the order they went in, an abort is final,
and a receipt is rejected only if its copy was never offered.
-/
import Jwm.Remote.ServeMailbox
import Jwm.Data.Run
import Mathlib.Algebra.Order.BigOperators.Group.List
import Mathlib.Algebra.Order.Group.Nat

namespace Jwm.Serve

open List RemoteServe Function Buf

/-! ## What the events say -/

namespace Event

def admitted? : Event → Option Request
  | .admitted request => some request
  | _ => none

def popped? : Event → Option Request
  | .popped request => some request
  | _ => none

def drained? : Event → Option Request
  | .drained request => some request
  | _ => none

def settled? : Event → Option Request
  | .installed request => some request
  | .declined request => some request
  | .applied request => some request
  | _ => none

/-- The receipt of a request that was refused, drained unpopped or refused by `install_remote_fulfil`. -/
def rejects : Event → Option Nat
  | .refused request => request.receipt?
  | .drained request => request.receipt?
  | .declined request => request.receipt?
  | _ => none

/-- The receipt of a request whose data became an offer. -/
def installs : Event → Option Nat
  | .installed request => request.receipt?
  | _ => none

def Ends : Event → Prop
  | .admitted _ => False
  | .popped _ => False
  | .finished => False
  | _ => True

end Event

/-! ## Receipts -/

/-- The requests that wait, in the queue or in the watcher's hands, and the flags: an undecided receipt waits, a rejected one was
rejected by an event of the log, an accepted one was installed by one. -/
structure Tracked (held : List Request) (flags : Receipts) (next : Nat) (log : List Event) : Prop where
  nodup : (held.filterMap RemoteServe.receipt?).Nodup
  undecided : ∀ id ∈ held.filterMap RemoteServe.receipt?, id < next ∧ flags id = .undecided
  fresh : ∀ id, flags id ≠ .undecided → id < next
  waiting : ∀ request id, Event.admitted request ∈ log → request.receipt? = some id → flags id = .undecided → request ∈ held
  rejected : ∀ id, flags id = .rejectedUnpublished ↔ ∃ e ∈ log, e.rejects = some id
  accepted : ∀ id, flags id = .acceptedOrMayPublish ↔ ∃ e ∈ log, e.installs = some id

variable {id index : Nat} {f : Event → Option Request} {rest : List (Request × Nat)} {marks : List Event}

section

variable {held held' : List Request} {flags : Receipts} {next : Nat} {log : List Event} {request : Request} {e : Event}

theorem exists_mem_append_singleton {P : Event → Prop} : (∃ e' ∈ log ++ [e], P e') ↔ (∃ e' ∈ log, P e') ∨ P e := by
  simp [or_and_right, exists_or]

theorem Tracked.perm (h : Tracked held flags next log) (hperm : held.Perm held') : Tracked held' flags next log where
  nodup := (hperm.filterMap _).nodup_iff.1 h.nodup
  undecided id hid := h.undecided id ((hperm.filterMap _).mem_iff.2 hid)
  fresh := h.fresh
  waiting request id hadmitted hid hflag := hperm.mem_iff.1 (h.waiting request id hadmitted hid hflag)
  rejected := h.rejected
  accepted := h.accepted

theorem Tracked.mark (h : Tracked held flags next log) (hadmitted : e.admitted? = none) (hrejects : e.rejects = none)
    (hinstalls : e.installs = none) : Tracked held flags next (log ++ [e]) where
  nodup := h.nodup
  undecided := h.undecided
  fresh := h.fresh
  waiting request id hmem hid hflag := by
    rcases mem_append.1 hmem with hmem | hmem
    · exact h.waiting request id hmem hid hflag
    · rw [← mem_singleton.1 hmem] at hadmitted
      cases hadmitted
  rejected id := by
    rw [exists_mem_append_singleton, hrejects, h.rejected]
    simp
  accepted id := by
    rw [exists_mem_append_singleton, hinstalls, h.accepted]
    simp

section

variable (h : Tracked (request :: held) flags next log)
include h

theorem Tracked.drop (hreceipt : request.receipt? = none) : Tracked held flags next log := by
  have hfilter : (request :: held).filterMap receipt? = held.filterMap receipt? :=
    filterMap_cons_none hreceipt
  constructor
  · exact hfilter ▸ h.nodup
  · exact hfilter ▸ h.undecided
  · exact h.fresh
  · intro other id hmem hid hflag
    rcases mem_cons.1 (h.waiting other id hmem hid hflag) with rfl | hheld
    · rw [hreceipt] at hid
      cases hid
    · exact hheld
  · exact h.rejected
  · exact h.accepted

theorem Tracked.decide (hreceipt : request.receipt? = some id) {flag : Disposition} (hadmitted : e.admitted? = none)
    (hflag : (flag = .rejectedUnpublished ∧ e.rejects = some id ∧ e.installs = none) ∨ (flag = .acceptedOrMayPublish ∧ e.rejects = none ∧ e.installs = some id)) :
    Tracked held (Function.update flags id flag) next (log ++ [e]) := by
  have hfilter : (request :: held).filterMap receipt? = id :: held.filterMap receipt? :=
    filterMap_cons_some hreceipt
  obtain ⟨hnotin, hnodup⟩ := nodup_cons.1 (hfilter ▸ h.nodup)
  obtain ⟨hlt, hundecided⟩ := h.undecided id (hfilter ▸ mem_cons_self)
  have hheld : ∀ other ∈ held.filterMap receipt?, other < next ∧ flags other = .undecided := fun other hother =>
    h.undecided other (hfilter ▸ mem_cons_of_mem _ hother)
  have hdecided : flag ≠ .undecided := by
    rcases hflag with ⟨rfl, -⟩ | ⟨rfl, -⟩ <;> simp
  constructor
  · exact hnodup
  · intro other hother
    have hne : other ≠ id := fun heq => hnotin (heq ▸ hother)
    rw [update_of_ne hne]
    exact hheld other hother
  · intro other hother
    by_cases heq : other = id
    · exact heq ▸ hlt
    · rw [update_of_ne heq] at hother
      exact h.fresh other hother
  · intro other otherId hmem hid hother
    have hne : otherId ≠ id := by
      rintro rfl
      rw [update_self] at hother
      exact hdecided hother
    rw [update_of_ne hne] at hother
    rcases mem_append.1 hmem with hmem | hmem
    · rcases mem_cons.1 (h.waiting other otherId hmem hid hother) with rfl | hheld
      · exact absurd (Option.some.inj (hid.symm.trans hreceipt)) hne
      · exact hheld
    · rw [← mem_singleton.1 hmem] at hadmitted
      cases hadmitted
  · intro other
    rw [exists_mem_append_singleton, ← h.rejected]
    by_cases heq : other = id
    · subst heq
      rw [update_self, hundecided]
      rcases hflag with ⟨rfl, hrejects, -⟩ | ⟨rfl, hrejects, -⟩ <;> simp [hrejects]
    · rw [update_of_ne heq]
      rcases hflag with ⟨-, hrejects, -⟩ | ⟨-, hrejects, -⟩ <;> simp [hrejects, Ne.symm heq]
  · intro other
    rw [exists_mem_append_singleton, ← h.accepted]
    by_cases heq : other = id
    · subst heq
      rw [update_self, hundecided]
      rcases hflag with ⟨rfl, -, hinstalls⟩ | ⟨rfl, -, hinstalls⟩ <;> simp [hinstalls]
    · rw [update_of_ne heq]
      rcases hflag with ⟨-, -, hinstalls⟩ | ⟨-, -, hinstalls⟩ <;> simp [hinstalls, Ne.symm heq]

theorem Tracked.reject (hadmitted : e.admitted? = none) (hrejects : e.rejects = request.receipt?) (hinstalls : e.installs = none) :
    Tracked held (flags.reject request) next (log ++ [e]) := by
  unfold Receipts.reject
  cases hreceipt : request.receipt? with
  | none => exact (h.drop hreceipt).mark hadmitted (hrejects.trans hreceipt) hinstalls
  | some id =>
    obtain ⟨-, hundecided⟩ := h.undecided id (mem_filterMap.2 ⟨request, mem_cons_self, hreceipt⟩)
    dsimp only
    rw [Receipts.rejectUnpublished, if_pos hundecided]
    exact h.decide hreceipt hadmitted (.inl ⟨rfl, hrejects.trans hreceipt, hinstalls⟩)

end

theorem Tracked.rejectAll : ∀ {drained held : List Request} {flags : Receipts} {log : List Event},
    Tracked (drained ++ held) flags next log → Tracked held (flags.rejectAll drained) next (log ++ drained.map Event.drained)
  | [], _, _, _, h => by
    rw [map_nil, append_nil]
    exact h
  | request :: drained, held, flags, log, h => by
    rw [map_cons, append_cons, Receipts.rejectAll, foldl_cons]
    exact Tracked.rejectAll (h.reject rfl rfl rfl)

theorem withReceipt_receipt? {draft : RemoteServe Unit} (h : (draft.withReceipt next).receipt? = some id) : id = next := by
  cases draft <;> cases h
  rfl

theorem Tracked.issue (h : Tracked held flags next log) (draft : RemoteServe Unit) :
    Tracked (draft.withReceipt next :: held) flags (next + 1) log := by
  have hundecided : flags next = .undecided := by
    by_contra hflag
    exact Nat.lt_irrefl next (h.fresh next hflag)
  have hheld : ∀ id ∈ held.filterMap receipt?, id < next + 1 ∧ flags id = .undecided := fun id hid =>
    ⟨Nat.lt_succ_of_lt (h.undecided id hid).1, (h.undecided id hid).2⟩
  constructor
  · cases hreceipt : (draft.withReceipt next).receipt? with
    | none => exact (filterMap_cons_none hreceipt).symm ▸ h.nodup
    | some id =>
      rw [filterMap_cons_some hreceipt, withReceipt_receipt? hreceipt, nodup_cons]
      exact ⟨fun hmem => Nat.lt_irrefl next (h.undecided next hmem).1, h.nodup⟩
  · cases hreceipt : (draft.withReceipt next).receipt? with
    | none =>
      rw [filterMap_cons_none hreceipt]
      exact hheld
    | some id =>
      rw [filterMap_cons_some hreceipt, withReceipt_receipt? hreceipt]
      exact forall_mem_cons.2 ⟨⟨Nat.lt_succ_self next, hundecided⟩, hheld⟩
  · exact fun id hflag => Nat.lt_succ_of_lt (h.fresh id hflag)
  · exact fun request id hmem hid hflag => mem_cons_of_mem _ (h.waiting request id hmem hid hflag)
  · exact h.rejected
  · exact h.accepted

theorem Tracked.enter (h : Tracked held flags next log) (hmem : request ∈ held) : Tracked held flags next (log ++ [.admitted request]) where
  nodup := h.nodup
  undecided := h.undecided
  fresh := h.fresh
  waiting other id hadmitted hid hflag := by
    rcases mem_append.1 hadmitted with hadmitted | hadmitted
    · exact h.waiting other id hadmitted hid hflag
    · cases mem_singleton.1 hadmitted
      exact hmem
  rejected id := by
    rw [exists_mem_append_singleton, h.rejected]
    simp [Event.rejects]
  accepted id := by
    rw [exists_mem_append_singleton, h.accepted]
    simp [Event.installs]

open Mailbox

/-- What the watcher applies leaves its hands, with its receipt decided as its data became an offer or not. -/
theorem Tracked.apply (h : Tracked (request :: held) flags next log) (pending offered : Option OfferedData) :
    Tracked held (applyRemote flags request pending offered).1 next
      (log ++ [(applyRemote flags request pending offered).2]) := by
  cases request with
  | text v | announce token kind | abandon token => exact (h.drop rfl).mark rfl rfl rfl
  | fulfilPng token png =>
    unfold applyRemote
    dsimp only
    split
    · exact (h.drop rfl).mark rfl rfl rfl
    · exact (h.drop rfl).mark rfl rfl rfl
  | fulfilFiles token paths receipt =>
    unfold applyRemote
    dsimp only
    rcases installRemoteFulfil_cases token (.ofPaths (paths.items.map items)) pending offered flags (some receipt) with
      heq | heq | heq
    · rw [heq]
      exact h.decide rfl rfl (.inr ⟨rfl, rfl, rfl⟩)
    · rw [heq]
      exact h.decide rfl rfl (.inr ⟨rfl, rfl, rfl⟩)
    · rw [heq]
      exact h.reject rfl rfl rfl

end

/-! ## The queue -/

/-- The accounts of a queue, and the log that led to it. -/
structure Queued (log : List Event) (q : QueueState) : Prop where
  bytes : q.bytes = (q.queue.map Prod.snd).sum
  sizes : ∀ entry ∈ q.queue, requestBytes entry.1 = some entry.2
  retained : q.bytes ≤ maxRetainedBytes
  commands : q.queue.length ≤ maxCommands
  order : log.filterMap Event.popped? ++ log.filterMap Event.drained? ++ q.requests = log.filterMap Event.admitted?
  drained : log.filterMap Event.drained? ≠ [] → q.closed = true ∨ q.aborted = true
  aborted : Event.aborted ∈ log ↔ q.aborted = true
  empty : q.aborted = true ∨ log.filterMap Event.drained? ≠ [] → q.queue = []
  ends : log.Pairwise fun earlier later => earlier = .aborted → later.Ends

section

variable {log new : List Event} {q q' : QueueState} {request : Request} {e : Event} {size : Nat}

section

variable (h : log.Pairwise fun earlier later => earlier = Event.aborted → later.Ends)
include h

theorem ends_append (hnew : ∀ later ∈ new, later.Ends) :
    (log ++ new).Pairwise fun earlier later => earlier = Event.aborted → later.Ends :=
  pairwise_append.2 ⟨h, pairwise_of_forall_mem_list fun _ _ later hlater _ => hnew later hlater,
    fun _ _ later hlater _ => hnew later hlater⟩

theorem ends_append_of_notMem
    (hnot : Event.aborted ∉ log) : (log ++ [e]).Pairwise fun earlier later => earlier = Event.aborted → later.Ends := by
  refine pairwise_append.2 ⟨h, pairwise_singleton _ e, ?_⟩
  rintro earlier hearlier - - rfl
  exact absurd hearlier hnot

end

theorem filterMap_concat_none (h : f e = none) : (log ++ [e]).filterMap f = log.filterMap f := by
  simp [h]

theorem filterMap_concat_some (h : f e = some request) : (log ++ [e]).filterMap f = log.filterMap f ++ [request] := by
  simp [h]

theorem Queued.mark (h : Queued log q) (hadmitted : e.admitted? = none) (hpopped : e.popped? = none) (hdrained : e.drained? = none)
    (haborted : e = .aborted → q.aborted = true) (hends : q.aborted = true → e.Ends) : Queued (log ++ [e]) q := by
  constructor
  · exact h.bytes
  · exact h.sizes
  · exact h.retained
  · exact h.commands
  · rw [filterMap_concat_none hadmitted, filterMap_concat_none hpopped, filterMap_concat_none hdrained]
    exact h.order
  · rw [filterMap_concat_none hdrained]
    exact h.drained
  · rw [mem_append, mem_singleton, h.aborted]
    exact or_iff_left_of_imp fun heq => haborted heq.symm
  · rw [filterMap_concat_none hdrained]
    exact h.empty
  · by_cases hflag : q.aborted = true
    · exact ends_append h.ends (forall_mem_singleton.2 (hends hflag))
    · exact ends_append_of_notMem h.ends (h.aborted.not.2 hflag)

open QueueState

theorem Queued.enter (h : Queued log q) (hclosed : q.closed = false) (haborted : q.aborted = false)
    (hsize : requestBytes request = some size) (hroom : q.queue.length < maxCommands) (hle : size ≤ maxRetainedBytes - q.bytes) :
    Queued (log ++ [.admitted request]) { q with bytes := q.bytes + size, queue := q.queue ++ [(request, size)] } := by
  have hnone : log.filterMap Event.drained? = [] := by
    by_contra hdrained
    rcases h.drained hdrained with hflag | hflag
    · rw [hclosed] at hflag
      cases hflag
    · rw [haborted] at hflag
      cases hflag
  have hsame : (log ++ [Event.admitted request]).filterMap Event.drained? = [] := (filterMap_concat_none rfl).trans hnone
  constructor
  · simp [h.bytes]
  · intro entry hentry
    rcases mem_append.1 hentry with hentry | hentry
    · exact h.sizes entry hentry
    · cases mem_singleton.1 hentry
      exact hsize
  · have := h.retained
    show q.bytes + size ≤ maxRetainedBytes
    omega
  · simpa [Nat.succ_le_iff] using hroom
  · have horder := h.order
    rw [hnone, append_nil] at horder
    rw [hsame, filterMap_concat_none rfl, filterMap_concat_some rfl, ← horder]
    simp [requests]
  · intro hdrained
    exact absurd hsame hdrained
  · simpa using h.aborted
  · rintro (hflag | hdrained)
    · rw [haborted] at hflag
      cases hflag
    · exact absurd hsame hdrained
  · refine ends_append_of_notMem h.ends (h.aborted.not.2 ?_)
    simp [haborted]

theorem Queued.pop (h : Queued log q) (hqueue : q.queue = (request, size) :: rest) :
    Queued (log ++ [.popped request]) { q with queue := rest, bytes := q.bytes - size } := by
  have hfull : q.queue ≠ [] := by
    simp [hqueue]
  have hflag : ¬ q.aborted = true := fun hflag => hfull (h.empty (.inl hflag))
  have hnone : log.filterMap Event.drained? = [] := by
    by_contra hdrained
    exact hfull (h.empty (.inr hdrained))
  have hsame : (log ++ [Event.popped request]).filterMap Event.drained? = [] := (filterMap_concat_none rfl).trans hnone
  have hbytes : q.bytes = size + (rest.map Prod.snd).sum := by
    rw [h.bytes, hqueue, map_cons, sum_cons]
  constructor
  · show q.bytes - size = (rest.map Prod.snd).sum
    omega
  · exact fun entry hentry => h.sizes entry (hqueue ▸ mem_cons_of_mem _ hentry)
  · exact Nat.le_trans (Nat.sub_le _ _) h.retained
  · have hcommands := h.commands
    rw [hqueue, length_cons] at hcommands
    exact Nat.le_of_succ_le hcommands
  · have horder := h.order
    rw [hnone, append_nil] at horder
    rw [hsame, filterMap_concat_some rfl, filterMap_concat_none rfl, ← horder]
    simp [requests, hqueue]
  · intro hdrained
    exact absurd hsame hdrained
  · simpa using h.aborted
  · rintro (haborted | hdrained)
    · exact absurd haborted hflag
    · exact absurd hsame hdrained
  · exact ends_append_of_notMem h.ends (h.aborted.not.2 hflag)

theorem filterMap_drained (requests : List Request) : (requests.map Event.drained).filterMap Event.drained? = requests := by
  rw [filterMap_map]
  exact filterMap_some

theorem Queued.drain (h : Queued log q) (hqueue : q'.queue = []) (hbytes : q'.bytes = 0)
    (hmarks : (marks = [] ∧ q'.aborted = q.aborted ∧ q'.closed = true) ∨ (marks = [.aborted] ∧ q'.aborted = true)) :
    Queued (log ++ (marks ++ q.requests.map .drained)) q' := by
  have hpopped : (q.requests.map Event.drained).filterMap Event.popped? = [] := by
    rw [filterMap_map]
    exact filterMap_eq_nil_iff.2 fun _ _ => rfl
  have hadmitted : (q.requests.map Event.drained).filterMap Event.admitted? = [] := by
    rw [filterMap_map]
    exact filterMap_eq_nil_iff.2 fun _ _ => rfl
  have hnone : ∀ {f : Event → Option Request}, f .aborted = none → marks.filterMap f = [] := by
    intro f hf
    rcases hmarks with ⟨rfl, -⟩ | ⟨rfl, -⟩
    · rfl
    · simp [hf]
  constructor
  · rw [hbytes, hqueue]
    rfl
  · rw [hqueue]
    exact forall_mem_nil _
  · rw [hbytes]
    exact Nat.zero_le _
  · rw [hqueue]
    exact Nat.zero_le _
  · have hsame : ∀ f : Event → Option Request, f .aborted = none →
        (log ++ (marks ++ q.requests.map Event.drained)).filterMap f = log.filterMap f ++ (q.requests.map Event.drained).filterMap f := by
      intro f hf
      rw [filterMap_append, filterMap_append, hnone hf, nil_append]
    have hempty : q'.requests = [] := by
      rw [requests, hqueue, map_nil]
    rw [hsame _ rfl, hsame _ rfl, hsame _ rfl, hpopped, hadmitted, filterMap_drained, hempty, append_nil, append_nil, append_nil,
      ← append_assoc]
    exact h.order
  · rintro -
    rcases hmarks with ⟨-, -, hclosed⟩ | ⟨-, haborted⟩
    · exact .inl hclosed
    · exact .inr haborted
  · rcases hmarks with ⟨rfl, haborted, -⟩ | ⟨rfl, haborted⟩
    · simp [haborted, h.aborted]
    · simp [haborted]
  · exact fun _ => hqueue
  · refine ends_append h.ends ?_
    intro e he
    rcases mem_append.1 he with he | he
    · rcases hmarks with ⟨rfl, -⟩ | ⟨rfl, -⟩
      · cases he
      · cases mem_singleton.1 he
        trivial
    · obtain ⟨-, -, rfl⟩ := mem_map.1 he
      trivial

end

/-- What a send does: a queue that is closed or aborted refuses, one without room for the request is aborted, another takes it. -/
theorem QueueState.send_cases (q : QueueState) (value : Request) : q.send value = (q, .refused) ∨
    q.send value = (q.abortLocked.1, .overflowed q.requests) ∨
    ∃ size, q.closed = false ∧ q.aborted = false ∧ requestBytes value = some size ∧ q.queue.length < maxCommands ∧
      size ≤ maxRetainedBytes - q.bytes ∧
      q.send value = ({ q with bytes := q.bytes + size, queue := q.queue ++ [(value, size)] }, .admitted) := by
  unfold QueueState.send
  by_cases hopen : (q.closed || q.aborted) = true
  · rw [if_pos hopen]
    exact .inl rfl
  · rw [if_neg hopen]
    cases hfilter : (requestBytes value).filter fun bytes => q.queue.length < maxCommands && bytes ≤ maxRetainedBytes - q.bytes with
    | none => exact .inr (.inl rfl)
    | some size =>
      obtain ⟨hsize, hroom⟩ := Option.filter_eq_some_iff.1 hfilter
      simp only [Bool.and_eq_true, decide_eq_true_eq] at hroom
      simp only [Bool.or_eq_true, not_or, Bool.not_eq_true] at hopen
      exact .inr (.inr ⟨size, hopen.1, hopen.2, hsize, hroom.1, hroom.2, rfl⟩)

theorem applyRemote_event (flags : Receipts) (request : Request) (pending offered : Option OfferedData) :
    (Mailbox.applyRemote flags request pending offered).2.admitted? = none ∧
    (Mailbox.applyRemote flags request pending offered).2.popped? = none ∧
    (Mailbox.applyRemote flags request pending offered).2.drained? = none ∧
    (Mailbox.applyRemote flags request pending offered).2.settled? = some request ∧
    (Mailbox.applyRemote flags request pending offered).2 ≠ .aborted ∧
    (Mailbox.applyRemote flags request pending offered).2.Ends := by
  have hend : (Mailbox.applyRemote flags request pending offered).2 = .installed request ∨
      (Mailbox.applyRemote flags request pending offered).2 = .declined request ∨
      (Mailbox.applyRemote flags request pending offered).2 = .applied request := by
    unfold Mailbox.applyRemote
    dsimp only
    split
    · split <;> simp
    · split <;> simp
    · simp
  rcases hend with heq | heq | heq <;> rw [heq] <;> exact ⟨rfl, rfl, rfl, rfl, by simp, trivial⟩

/-! ## Steps -/

/-- The mailbox after a log of events. -/
structure Kept (log : List Event) (m : Mailbox) : Prop where
  queued : Queued log m.queue
  settled : (log.filterMap Event.popped?).Perm (log.filterMap Event.settled? ++ m.hands)
  tracked : Tracked (m.queue.requests ++ m.hands) m.receipts m.nextReceipt log

section

variable {log new : List Event} {m : Mailbox}

theorem kept_start : Kept [] .start where
  queued :=
    { bytes := rfl
      sizes := forall_mem_nil _
      retained := Nat.zero_le _
      commands := Nat.zero_le _
      order := rfl
      drained := fun h => absurd rfl h
      aborted := by simp [Mailbox.start, QueueState.new]
      empty := fun _ => rfl
      ends := List.Pairwise.nil }
  settled := List.Perm.nil
  tracked :=
    { nodup := nodup_nil
      undecided := forall_mem_nil _
      fresh := fun _ h => absurd rfl h
      waiting := by simp
      rejected := by simp [Mailbox.start]
      accepted := by simp [Mailbox.start] }

theorem settled_append {hands : List Request} (h : (log.filterMap Event.popped?).Perm (log.filterMap Event.settled? ++ hands))
    (hnew : ∀ e ∈ new, e.popped? = none ∧ e.settled? = none) :
    ((log ++ new).filterMap Event.popped?).Perm ((log ++ new).filterMap Event.settled? ++ hands) := by
  have hpopped : new.filterMap Event.popped? = [] := filterMap_eq_nil_iff.2 fun e he => (hnew e he).1
  have hsettled : new.filterMap Event.settled? = [] := filterMap_eq_nil_iff.2 fun e he => (hnew e he).2
  rw [filterMap_append, filterMap_append, hpopped, hsettled, append_nil, append_nil]
  exact h

theorem drained_stays {requests : List Request} : ∀ e ∈ requests.map Event.drained, e.popped? = none ∧ e.settled? = none := by
  intro e he
  obtain ⟨request, -, rfl⟩ := mem_map.1 he
  exact ⟨rfl, rfl⟩

section

variable (h : Kept log m)
include h

theorem Kept.refuse (draft : RemoteServe Unit) : Kept (log ++ [.refused (m.fresh draft)])
      { m with receipts := m.receipts.reject (m.fresh draft), nextReceipt := m.nextReceipt + 1 } where
  queued := h.queued.mark rfl rfl rfl (fun heq => by cases heq) fun _ => trivial
  settled := settled_append h.settled (forall_mem_singleton.2 ⟨rfl, rfl⟩)
  tracked := (h.tracked.issue draft).reject rfl rfl rfl

theorem Kept.drain {q : QueueState} (hqueue : q.queue = []) (hbytes : q.bytes = 0)
    (hmarks : (marks = [] ∧ q.aborted = m.queue.aborted ∧ q.closed = true) ∨ (marks = [.aborted] ∧ q.aborted = true)) :
    Kept (log ++ (marks ++ m.queue.requests.map .drained))
      { m with queue := q, receipts := m.receipts.rejectAll m.queue.requests } := by
  have hrequests : q.requests = [] := by
    rw [QueueState.requests, hqueue, map_nil]
  constructor
  · exact h.queued.drain hqueue hbytes hmarks
  · refine settled_append h.settled fun e he => ?_
    rcases mem_append.1 he with he | he
    · rcases hmarks with ⟨rfl, -⟩ | ⟨rfl, -⟩
      · cases he
      · cases mem_singleton.1 he
        exact ⟨rfl, rfl⟩
    · exact drained_stays e he
  · have hmarked : Tracked (m.queue.requests ++ m.hands) m.receipts m.nextReceipt (log ++ marks) := by
      rcases hmarks with ⟨rfl, -⟩ | ⟨rfl, -⟩
      · rw [append_nil]
        exact h.tracked
      · exact h.tracked.mark rfl rfl rfl
    rw [← append_assoc]
    rw [hrequests, nil_append]
    exact hmarked.rejectAll

theorem Kept.pop {request : Request} {size : Nat} (hqueue : m.queue.queue = (request, size) :: rest) :
    Kept (log ++ [.popped request])
      { m with queue := { m.queue with queue := rest, bytes := m.queue.bytes - size }, hands := m.hands ++ [request] } := by
  constructor
  · exact h.queued.pop hqueue
  · rw [filterMap_concat_some rfl, filterMap_concat_none rfl, ← append_assoc]
    exact h.settled.append_right _
  · refine (h.tracked.perm ?_).mark rfl rfl rfl
    have hrequests : m.queue.requests = request :: rest.map Prod.fst := by
      rw [QueueState.requests, hqueue, map_cons]
    rw [hrequests, cons_append, ← append_assoc]
    exact (perm_append_singleton request _).symm

theorem Kept.apply {request : Request} (hhands : m.hands[index]? = some request) (pending offered : Option OfferedData) :
    Kept (log ++ [(Mailbox.applyRemote m.receipts request pending offered).2])
      { m with
        receipts := (Mailbox.applyRemote m.receipts request pending offered).1
        hands := m.hands.eraseIdx index } := by
  obtain ⟨hlt, hget⟩ := List.getElem?_eq_some_iff.1 hhands
  have hperm : m.hands.Perm (request :: m.hands.eraseIdx index) := hget ▸ (getElem_cons_eraseIdx_perm hlt).symm
  obtain ⟨hadmitted, hpopped, hdrained, hsettled, hne, hends⟩ := applyRemote_event m.receipts request pending offered
  constructor
  · exact h.queued.mark hadmitted hpopped hdrained (fun heq => absurd heq hne) fun _ => hends
  · rw [filterMap_concat_none hpopped, filterMap_concat_some hsettled, append_assoc]
    exact h.settled.trans (hperm.append_left _)
  · refine (h.tracked.perm ?_).apply pending offered
    exact (hperm.append_left _).trans perm_middle

/-- The sending half: a draft gets a receipt of its own and is taken, or it is refused and the queue aborted. -/
theorem Kept.send (draft : RemoteServe Unit) : Kept (log ++ (m.step (.send draft)).2) (m.step (.send draft)).1 := by
  unfold Mailbox.step
  dsimp only
  rcases m.queue.send_cases (m.fresh draft) with hsend | hsend | ⟨size, hclosed, haborted, hsize, hroom, hle, hsend⟩
  · rw [hsend]
    exact h.refuse draft
  · rw [hsend]
    have hdrain := h.drain (q := m.queue.abortLocked.1) rfl rfl (.inr ⟨rfl, rfl⟩)
    rw [← append_assoc]
    exact hdrain.refuse draft
  · rw [hsend]
    constructor
    · exact h.queued.enter hclosed haborted hsize hroom hle
    · exact settled_append h.settled (forall_mem_singleton.2 ⟨rfl, rfl⟩)
    · refine ((h.tracked.issue draft).enter mem_cons_self).perm ?_
      have hrequests : QueueState.requests { m.queue with
          bytes := m.queue.bytes + size, queue := m.queue.queue ++ [(m.fresh draft, size)] } = m.queue.requests ++ [m.fresh draft] := by
        rw [QueueState.requests, map_append]
        rfl
      rw [hrequests, append_assoc]
      exact perm_middle.symm

theorem Kept.shut : Kept log { m with queue := m.queue.closeSender } where
  queued :=
    { bytes := h.queued.bytes
      sizes := h.queued.sizes
      retained := h.queued.retained
      commands := h.queued.commands
      order := h.queued.order
      drained := fun _ => .inl rfl
      aborted := h.queued.aborted
      empty := h.queued.empty
      ends := h.queued.ends }
  settled := h.settled
  tracked := h.tracked

theorem Kept.finish (hflag : m.queue.aborted = false) : Kept (log ++ [.finished]) m where
  queued := h.queued.mark rfl rfl rfl (fun heq => by cases heq) fun haborted => by
    rw [hflag] at haborted
    cases haborted
  settled := settled_append h.settled (forall_mem_singleton.2 ⟨rfl, rfl⟩)
  tracked := h.tracked.mark rfl rfl rfl

theorem Kept.step (call : Call) : Kept (log ++ (m.step call).2) (m.step call).1 := by
  cases call with
  | send draft => exact h.send draft
  | refuse draft => exact h.refuse draft
  | abort => exact h.drain (q := m.queue.abortLocked.1) rfl rfl (.inr ⟨rfl, rfl⟩)
  | pop =>
    unfold Mailbox.step QueueState.pop
    cases hqueue : m.queue.queue with
    | nil =>
      rw [append_nil]
      exact h
    | cons entry rest => exact h.pop hqueue
  | apply index pending offered =>
    unfold Mailbox.step
    dsimp only
    cases hhands : m.hands[index]? with
    | none =>
      rw [append_nil]
      exact h
    | some request => exact h.apply hhands pending offered
  | closeSender =>
    show Kept (log ++ []) _
    rw [append_nil]
    exact h.shut
  | closeNormally =>
    have hdrain : Kept (log ++ ([] ++ m.queue.requests.map .drained))
        { m with queue := m.queue.closeNormally.1, receipts := m.receipts.rejectAll m.queue.requests } :=
      h.drain rfl rfl (.inl ⟨rfl, rfl, rfl⟩)
    unfold Mailbox.step
    rw [← append_assoc]
    split
    · -- The queue counts as finished only if it was not aborted before.
      rename_i hfinished
      have hflag : m.queue.aborted = false := by
        simpa [QueueState.closeNormally] using hfinished
      exact hdrain.finish hflag
    · rw [append_nil]
      exact hdrain
  | close =>
    unfold Mailbox.step QueueState.close
    by_cases hfinished : m.queue.finished = true
    · rw [if_pos hfinished, if_pos hfinished]
      dsimp only
      rw [map_nil, append_nil, append_nil]
      exact h.shut
    · rw [if_neg hfinished, if_neg hfinished]
      exact h.drain rfl rfl (.inr ⟨rfl, rfl⟩)

end

end

/-! ## Runs -/

namespace Mailbox

def run (calls : List Call) : Mailbox := after step start calls

def log (calls : List Call) : List Event := (answers step start calls).flatten

theorem log_append (calls more : List Call) : log (calls ++ more) = log calls ++ (answers step (run calls) more).flatten := by
  unfold log answers run
  rw [trace_append, map_append, flatten_append]

theorem log_concat (calls : List Call) (call : Call) : log (calls ++ [call]) = log calls ++ ((run calls).step call).2 := by
  rw [log_append]
  simp [answers, trace]

theorem run_concat (calls : List Call) (call : Call) : run (calls ++ [call]) = ((run calls).step call).1 :=
  after_append start calls [call]

theorem kept_run (calls : List Call) : Kept (log calls) (run calls) := by
  refine trace_invariant (I := fun h m => Kept (h.map Prod.snd).flatten m) ?_ kept_start calls
  intro h m call hkept
  rw [map_append, flatten_append]
  simpa using hkept.step call

theorem rejected_not_installed {calls more : List Call} (hflag : (run calls).receipts id = .rejectedUnpublished) :
    ∀ request, .installed request ∈ log (calls ++ more) → request.receipt? ≠ some id := by
  intro request hinstalled hreceipt
  obtain ⟨e, he, hrejects⟩ := ((kept_run calls).tracked.rejected id).1 hflag
  have hstill : (run (calls ++ more)).receipts id = .rejectedUnpublished :=
    ((kept_run (calls ++ more)).tracked.rejected id).2 ⟨e, by rw [log_append]; exact mem_append_left _ he, hrejects⟩
  have haccepted : (run (calls ++ more)).receipts id = .acceptedOrMayPublish :=
    ((kept_run (calls ++ more)).tracked.accepted id).2 ⟨_, hinstalled, hreceipt⟩
  rw [hstill] at haccepted
  cases haccepted

/-- Only `close_normally` finishes a queue, and not one that was aborted. -/
theorem finished_step {m : Mailbox} {call : Call} (hbefore : m.queue.finished = false) (hafter : (m.step call).1.queue.finished = true) :
    m.queue.aborted = false := by
  cases call with
  | send draft =>
    unfold step at hafter
    dsimp only at hafter
    rcases m.queue.send_cases (m.fresh draft) with hsend | hsend | ⟨size, -, -, -, -, -, hsend⟩ <;> rw [hsend] at hafter <;>
      exact absurd (hbefore.symm.trans hafter) Bool.false_ne_true
  | refuse draft | abort => exact absurd (hbefore.symm.trans hafter) Bool.false_ne_true
  | pop =>
    unfold step QueueState.pop at hafter
    cases hqueue : m.queue.queue <;> rw [hqueue] at hafter <;> exact absurd (hbefore.symm.trans hafter) Bool.false_ne_true
  | apply index pending offered =>
    unfold step at hafter
    dsimp only at hafter
    cases hhands : m.hands[index]? <;> rw [hhands] at hafter <;> exact absurd (hbefore.symm.trans hafter) Bool.false_ne_true
  | closeSender => exact absurd (hbefore.symm.trans hafter) Bool.false_ne_true
  | closeNormally => simpa [step, QueueState.closeNormally] using hafter
  | close =>
    unfold step QueueState.close at hafter
    rw [if_neg (by simp [hbefore])] at hafter
    exact absurd (hbefore.symm.trans hafter) Bool.false_ne_true

/-- A file copy in the watcher's hands becomes an offer, or the offers stay as they are. -/
theorem apply_file {m : Mailbox} {token receipt : Nat} {paths : Buf (Buf Byte)}
    (hhands : m.hands[index]? = some (.fulfilFiles token paths receipt)) (pending offered : Option OfferedData) :
    ((m.step (.apply index pending offered)).2 = [.installed (.fulfilFiles token paths receipt)] ∧
      ((installRemoteFulfil token (.ofPaths (paths.items.map items)) pending offered m.receipts (some receipt)).pending =
          some (.ofPaths (paths.items.map items)) ∨
        (installRemoteFulfil token (.ofPaths (paths.items.map items)) pending offered m.receipts (some receipt)).offered =
          some (.ofPaths (paths.items.map items)))) ∨
    ((m.step (.apply index pending offered)).2 = [.declined (.fulfilFiles token paths receipt)] ∧
      (installRemoteFulfil token (.ofPaths (paths.items.map items)) pending offered m.receipts (some receipt)).pending = pending ∧
      (installRemoteFulfil token (.ofPaths (paths.items.map items)) pending offered m.receipts (some receipt)).offered =
        offered) := by
  unfold step
  dsimp only
  rw [hhands]
  unfold applyRemote
  dsimp only
  rcases installRemoteFulfil_cases token (.ofPaths (paths.items.map items)) pending offered m.receipts (some receipt) with
    heq | heq | heq
  · rw [heq]
    exact .inl ⟨rfl, .inl rfl⟩
  · rw [heq]
    exact .inl ⟨rfl, .inr rfl⟩
  · rw [heq]
    exact .inr ⟨rfl, rfl, rfl⟩

/-- Over every run the counter is the sum of the queued sizes and within bounds, requests come out in the order they went in,
none goes in or comes out after an abort, a receipt is rejected only if its request was refused, drained or declined, and its
copy is then never offered; all other requests wait in the queue or in the watcher's hands. -/
theorem serve_queue_runs (calls : List Call) :
    ((run calls).queue.bytes = ((run calls).queue.queue.map Prod.snd).sum ∧
      (∀ entry ∈ (run calls).queue.queue, requestBytes entry.1 = some entry.2 ∧ entry.2 ≤ (run calls).queue.bytes) ∧
      (run calls).queue.bytes ≤ maxRetainedBytes ∧ (run calls).queue.queue.length ≤ maxCommands) ∧
    (log calls).filterMap Event.popped? <+: (log calls).filterMap Event.admitted? ∧
    ((log calls).Pairwise fun earlier later => earlier = .aborted → later.Ends) ∧
    (∀ call, (run calls).queue.finished = false → (run (calls ++ [call])).queue.finished = true → Event.aborted ∉ log calls) ∧
    (∀ id, (run calls).receipts id = .rejectedUnpublished →
      (∃ request, request.receipt? = some id ∧
        (.refused request ∈ log calls ∨ .drained request ∈ log calls ∨ .declined request ∈ log calls)) ∧
      ∀ more request, .installed request ∈ log (calls ++ more) → request.receipt? ≠ some id) ∧
    (∀ index token receipt paths pending offered, (run calls).hands[index]? = some (.fulfilFiles token paths receipt) →
      (log (calls ++ [.apply index pending offered]) = log calls ++ [.installed (.fulfilFiles token paths receipt)] ∧
        ((installRemoteFulfil token (.ofPaths (paths.items.map Buf.items)) pending offered (run calls).receipts (some receipt)).pending =
            some (.ofPaths (paths.items.map Buf.items)) ∨
          (installRemoteFulfil token (.ofPaths (paths.items.map Buf.items)) pending offered (run calls).receipts (some receipt)).offered =
            some (.ofPaths (paths.items.map Buf.items)))) ∨
      (log (calls ++ [.apply index pending offered]) = log calls ++ [.declined (.fulfilFiles token paths receipt)] ∧
        (installRemoteFulfil token (.ofPaths (paths.items.map Buf.items)) pending offered (run calls).receipts (some receipt)).pending =
          pending ∧
        (installRemoteFulfil token (.ofPaths (paths.items.map Buf.items)) pending offered (run calls).receipts (some receipt)).offered =
          offered)) ∧
    ((log calls).filterMap Event.admitted? =
        (log calls).filterMap Event.popped? ++ (log calls).filterMap Event.drained? ++ (run calls).queue.requests ∧
      ((log calls).filterMap Event.popped?).Perm ((log calls).filterMap Event.settled? ++ (run calls).hands) ∧
      ∀ request id, .admitted request ∈ log calls → request.receipt? = some id → (run calls).receipts id = .undecided →
        request ∈ (run calls).queue.requests ∨ request ∈ (run calls).hands) := by
  have hkept := kept_run calls
  have hbytes := hkept.queued.bytes
  refine ⟨⟨hbytes, ?_, hkept.queued.retained, hkept.queued.commands⟩, ?_, hkept.queued.ends, ?_, ?_, ?_, ?_, hkept.settled, ?_⟩
  · intro entry hentry
    refine ⟨hkept.queued.sizes entry hentry, ?_⟩
    rw [hbytes]
    exact le_sum_of_mem (List.mem_map_of_mem hentry)
  · rw [← hkept.queued.order, append_assoc]
    exact prefix_append _ _
  · intro call hbefore hafter
    rw [run_concat] at hafter
    rw [hkept.queued.aborted, finished_step hbefore hafter]
    exact Bool.false_ne_true
  · intro id hflag
    refine ⟨?_, fun more => rejected_not_installed hflag⟩
    obtain ⟨e, he, hrejects⟩ := (hkept.tracked.rejected id).1 hflag
    cases e with
    | refused request => exact ⟨request, hrejects, .inl he⟩
    | drained request => exact ⟨request, hrejects, .inr (.inl he)⟩
    | declined request => exact ⟨request, hrejects, .inr (.inr he)⟩
    | admitted | popped | installed | applied | aborted | finished => cases hrejects
  · intro index token receipt paths pending offered hhands
    rw [log_concat]
    rcases apply_file hhands pending offered with ⟨hevents, hoffered⟩ | ⟨hevents, hsame⟩
    · exact .inl ⟨by rw [hevents], hoffered⟩
    · exact .inr ⟨by rw [hevents], hsame⟩
  · exact hkept.queued.order.symm
  · intro request id hadmitted hreceipt hflag
    exact mem_append.1 (hkept.tracked.waiting request id hadmitted hreceipt hflag)

end Mailbox

end Jwm.Serve
