/-
One call of the send queue. A push fails and leaves the records, or its events are queued, behind those that were
queued or in their place; only a batch that releases everything and then does not fit drops records and fails.
-/
import Jwm.Remote.SendQueue

namespace Jwm.Remote.Sender

open List Bool

/-! ## Invariants -/

/-- The counters are what is queued, within the limits. -/
structure Counted (q : Queue) : Prop where
  control : q.controlBytes = payloadBytes q.control
  bulk : q.bulkBytes = payloadBytes q.bulk
  controlLimit : q.controlBytes ≤ controlBytesLimit
  bulkLimit : q.bulkBytes ≤ bulkBytesLimit

/-- A queue that has not been closed. -/
structure Running (q : Queue) : Prop extends Counted q where
  live : q.check = .ok ()
  count : q.control.length ≤ controlRecords
  sizes : ∀ r ∈ q.control, ∀ n, expected r.kind = some n → r.payload.length = n
  bulkKinds : ∀ r ∈ q.bulk, isBulk r.kind = true
  scope : ∀ source geometry, q.inputScope = some (source, geometry) → source ≠ 0 ∧ geometry ≠ 0

theorem running_empty : Running {} where
  control := rfl
  bulk := rfl
  controlLimit := Nat.zero_le _
  bulkLimit := Nat.zero_le _
  live := rfl
  count := Nat.zero_le _
  sizes := fun _ h => nomatch h
  bulkKinds := fun _ h => nomatch h
  scope := fun _ _ h => nomatch h

def queuedEvents (q : Queue) : List InputEvent := (q.control ++ q.bulk).flatMap inputEvents

def unfenced (control : List Record) : List Record := control.filter (·.kind != .inputBatch)

abbrev isRelease : InputEvent → Bool := (· == .releaseAll)

variable {r : Record} {payload : List Byte} {events : List InputEvent} {records control : List Record} {kind : MessageKind}

theorem inputEvents_other (h : r.kind ≠ .inputBatch) : inputEvents r = [] := if_neg h

theorem inputEvents_batch {source geometry : BitVec 64}
    (h : decodeSourceInput payload = .ok (source, geometry, events)) : inputEvents ⟨.inputBatch, payload⟩ = events := by
  unfold inputEvents
  rw [if_pos rfl]
  simp only [h]

theorem flatMap_other (h : ∀ r ∈ records, r.kind ≠ .inputBatch) : records.flatMap inputEvents = [] := by
  rw [flatMap_eq_nil_iff]
  exact fun r hr => inputEvents_other (h r hr)

theorem mem_unfenced : r ∈ unfenced control ↔ r ∈ control ∧ r.kind ≠ .inputBatch := by
  unfold unfenced
  rw [mem_filter, bne_iff_ne]

variable {q : Queue}

theorem bulk_events (h : Running q) : q.bulk.flatMap inputEvents = [] := by
  refine flatMap_other fun r hr hk => ?_
  have hb := h.bulkKinds r hr
  rw [hk] at hb
  cases hb

theorem queuedEvents_eq (h : Running q) : queuedEvents q = q.control.flatMap inputEvents := by
  rw [queuedEvents, flatMap_append, bulk_events h, append_nil]

theorem payloadBytes_append (a b : List Record) : payloadBytes (a ++ b) = payloadBytes a + payloadBytes b := by
  unfold payloadBytes
  rw [map_append, sum_append]

theorem payloadBytes_single (r : Record) : payloadBytes [r] = r.payload.length := rfl

theorem payloadBytes_cons (r : Record) (records : List Record) :
    payloadBytes (r :: records) = r.payload.length + payloadBytes records := rfl

theorem payloadBytes_unfenced : ∀ control : List Record, payloadBytes (unfenced control) ≤ payloadBytes control
  | [] => Nat.le_refl _
  | r :: control => by
    have ih := payloadBytes_unfenced control
    unfold unfenced at ih ⊢
    rw [filter_cons, payloadBytes_cons]
    split
    · rw [payloadBytes_cons]
      omega
    · omega

theorem length_le_payloadBytes (h : r ∈ records) : r.payload.length ≤ payloadBytes records := by
  obtain ⟨before, later, rfl⟩ := append_of_mem h
  rw [payloadBytes_append, payloadBytes_cons]
  omega

/-! ## The fence -/

theorem drop_valid (hv : BatchValid events) {index : Nat} (h : index < events.length) : BatchValid (events.drop index) where
  nonempty h0 := by
    have hlen := congrArg List.length h0
    rw [length_drop, length_nil] at hlen
    omega
  length := by
    have hlen := hv.length
    rw [length_drop]
    omega
  events event hmem := hv.events event (mem_of_mem_drop hmem)

theorem rposition_release {events : List InputEvent} :
    (events.any isRelease = false ∧ rposition isRelease events = none) ∨
    (events.any isRelease = true ∧ ∃ index, rposition isRelease events = some index ∧ index < events.length ∧
      events.drop index = sinceLast isRelease events) := by
  cases h : events.any isRelease with
  | false =>
    refine .inl ⟨rfl, ?_⟩
    unfold rposition
    rw [findIdx?_eq_none_iff.2, Option.map_none]
    intro e he
    rw [any_eq_false] at h
    exact eq_false_iff.2 (h e (mem_reverse.1 he))
  | true =>
    obtain ⟨before, e, later, rfl, he, hlater, hs⟩ := sinceLast_cut h
    refine .inr ⟨rfl, before.length, rposition_cut he hlater, ?_, ?_⟩
    · rw [length_append, length_cons]
      omega
    · rw [drop_left, hs]

theorem fence_cases (q : Queue) (kind : MessageKind) (payload : List Byte) :
    (∃ error, decodeSourceInput payload = .error error ∧ q.fence kind payload = (q, .error error)) ∨
    (∃ scope, q.fence kind payload = ({ q with inputScope := scope }, .ok payload) ∧
      (scope = q.inputScope ∨ ∃ source geometry, scope = some (source, geometry) ∧ source ≠ 0 ∧ geometry ≠ 0) ∧
      (inputEvents ⟨kind, payload⟩).any isRelease = false) ∨
    (∃ source geometry events index, kind = .inputBatch ∧
      decodeSourceInput payload = .ok (source, geometry, events) ∧ rposition isRelease events = some index ∧
      source ≠ 0 ∧ geometry ≠ 0 ∧ events.any isRelease = true ∧
      decodeSourceInput (sourceInputBytes source geometry (events.drop index)) =
        .ok (source, geometry, sinceLast isRelease events) ∧
      q.fence kind payload =
        ({ q with inputScope := some (source, geometry), control := unfenced q.control,
                  controlBytes := payloadBytes (unfenced q.control) },
          .ok (sourceInputBytes source geometry (events.drop index)))) := by
  unfold Queue.fence
  by_cases hkind : kind = .inputBatch
  · rw [if_pos hkind]
    cases hd : decodeSourceInput payload with
    | error error => exact .inl ⟨error, rfl, rfl⟩
    | ok decoded =>
      obtain ⟨source, geometry, events⟩ := decoded
      obtain ⟨hs, hg, hv, -⟩ := decodeSourceInput_eq_ok.1 hd
      subst hkind
      have hevents := inputEvents_batch hd
      rcases @rposition_release events with ⟨hnone, hpos⟩ | ⟨hany, index, hpos, hlt, hdrop⟩
      · refine .inr (.inl ⟨some (source, geometry), ?_, .inr ⟨_, _, rfl, hs, hg⟩, by rw [hevents, hnone]⟩)
        simp only [hpos]
      · have hvalid := drop_valid hv hlt
        refine .inr (.inr ⟨source, geometry, events, index, rfl, rfl, hpos, hs, hg, hany, ?_, ?_⟩)
        · rw [← hdrop]
          exact decodeSourceInput_eq_ok.2 ⟨hs, hg, hvalid, rfl⟩
        · rcases encodeSourceInputInto_spec source geometry (events.drop index) [] with ⟨-, -, -, h⟩ | ⟨hno, -⟩
          · simp only [hpos, h]
            rfl
          · exact absurd ⟨hs, hg, hvalid⟩ hno
  · rw [if_neg hkind]
    refine .inr (.inl ⟨q.inputScope, rfl, .inl rfl, ?_⟩)
    rw [inputEvents_other hkind]
    rfl

/-! ## The limits -/

theorem replaceFirst_spec {kind : MessageKind} {payload : List Byte} {record : Record} : ∀ {records : List Record},
    records.find? (·.kind == kind) = some record →
    record ∈ records ∧ record.kind = kind ∧ (replaceFirst kind payload records).length = records.length ∧
    payloadBytes (replaceFirst kind payload records) + record.payload.length = payloadBytes records + payload.length ∧
    (∀ r ∈ replaceFirst kind payload records, r ∈ records ∨ r = ⟨kind, payload⟩) ∧
    (kind ≠ .inputBatch → (replaceFirst kind payload records).flatMap inputEvents = records.flatMap inputEvents)
  | [], h => nomatch h
  | r :: records, h => by
    rw [find?_cons] at h
    unfold replaceFirst
    cases hk : r.kind == kind with
    | true =>
      rw [hk] at h
      obtain rfl := Option.some.inj h
      have hkind : r.kind = kind := eq_of_beq hk
      simp only [if_true]
      refine ⟨mem_cons_self, hkind, rfl, ?_, fun x hx => ?_, fun hne => ?_⟩
      · rw [payloadBytes_cons, payloadBytes_cons]
        show payload.length + payloadBytes records + r.payload.length = _
        omega
      · rcases mem_cons.1 hx with rfl | hx
        · exact .inr (by rw [hkind])
        · exact .inl (mem_cons_of_mem _ hx)
      · have hold : inputEvents r = [] := inputEvents_other (by rw [hkind]; exact hne)
        have hnew : inputEvents { r with payload := payload } = [] :=
          inputEvents_other (show r.kind ≠ _ by rw [hkind]; exact hne)
        rw [flatMap_cons, flatMap_cons, hold, hnew]
    | false =>
      rw [hk] at h
      obtain ⟨hmem, hkind, hlen, hbytes, hnew, hevents⟩ := @replaceFirst_spec _ payload _ _ h
      simp only [false_eq_true, if_false]
      refine ⟨mem_cons_of_mem _ hmem, hkind, by rw [length_cons, length_cons, hlen], ?_, fun x hx => ?_,
        fun hne => ?_⟩
      · rw [payloadBytes_cons, payloadBytes_cons]
        omega
      · rcases mem_cons.1 hx with rfl | hx
        · exact .inl mem_cons_self
        · exact (hnew x hx).imp_left (mem_cons_of_mem _)
      · rw [flatMap_cons, flatMap_cons, hevents hne]

theorem full_eq_false {queue : List Record} {bytes countLimit byteLimit : Nat} :
    full queue bytes countLimit byteLimit payload = false ↔
      queue.length < countLimit ∧ payload.length ≤ byteLimit - bytes := by
  unfold full
  rw [or_eq_false_iff, decide_eq_false_iff_not, decide_eq_false_iff_not, ge_iff_le, Nat.not_le, Nat.not_lt]

theorem enqueue_control (payload : List Byte) (hlatest : latestState kind = false) (hbulk : isBulk kind = false) :
    q.enqueue kind payload =
      if full q.control q.controlBytes controlRecords controlBytesLimit payload then (q, .error overloaded)
      else ({ q with controlBytes := q.controlBytes + payload.length, control := q.control ++ [⟨kind, payload⟩] }, .ok ()) := by
  rw [Queue.enqueue, hlatest, hbulk]
  rfl

/-- Queueing a record either keeps the queue and adds its events behind the others, or finds the queue full. -/
theorem enqueue_cases (h : Running q) {kind : MessageKind} {payload : List Byte}
    (hsize : ∀ n, expected kind = some n → payload.length = n) :
    (q.enqueue kind payload = (q, .error overloaded)) ∨
    ((q.enqueue kind payload).2 = .ok () ∧ Running (q.enqueue kind payload).1 ∧
      queuedEvents (q.enqueue kind payload).1 = queuedEvents q ++ inputEvents ⟨kind, payload⟩) := by
  unfold Queue.enqueue
  split
  · -- the latest state, replaced in place
    rename_i record hfind
    have hlatest : latestState kind = true := by
      by_contra hno
      rw [if_neg hno] at hfind
      cases hfind
    rw [if_pos hlatest] at hfind
    have hne : kind ≠ .inputBatch := by
      rintro rfl
      cases hlatest
    obtain ⟨hmem, hkind, hlen, hbytes, hnew, hevents⟩ := @replaceFirst_spec _ payload _ _ hfind
    obtain ⟨n, hn⟩ : ∃ n, expected kind = some n := by
      cases kind <;> first | exact ⟨_, rfl⟩ | cases hlatest
    have hold : record.payload.length = payload.length := by
      rw [h.sizes record hmem n (by rw [hkind, hn]), hsize n hn]
    have hcontrol := h.control
    have hlimit := h.controlLimit
    have hle := length_le_payloadBytes hmem
    refine .inr ⟨rfl, ⟨⟨?_, h.bulk, ?_, h.bulkLimit⟩, h.live, ?_, fun r hr n hn => ?_, h.bulkKinds, h.scope⟩, ?_⟩
    · simp only
      omega
    · simp only
      omega
    · rw [hlen]
      exact h.count
    · rcases hnew r hr with hr | rfl
      · exact h.sizes r hr n hn
      · exact hsize n hn
    · rw [inputEvents_other hne, append_nil, queuedEvents, queuedEvents, flatMap_append, hevents hne,
        flatMap_append]
  · split
    · rename_i hbulk
      have hne : kind ≠ .inputBatch := by
        rintro rfl
        cases hbulk
      split
      · exact .inl rfl
      · rename_i hroom
        obtain ⟨-, hle⟩ := full_eq_false.1 (eq_false_iff.2 hroom)
        have hb := h.bulk
        have hlimit := h.bulkLimit
        refine .inr ⟨rfl, ⟨⟨h.control, ?_, h.controlLimit, ?_⟩, h.live, h.count, h.sizes, fun r hr => ?_, h.scope⟩, ?_⟩
        · rw [payloadBytes_append, payloadBytes_single, ← hb]
        · simp only
          omega
        · rcases mem_append.1 hr with hr | hr
          · exact h.bulkKinds r hr
          · rw [mem_singleton.1 hr]
            exact hbulk
        · rw [queuedEvents, queuedEvents, ← append_assoc, flatMap_append, flatMap_singleton]
    · split
      · exact .inl rfl
      · rename_i hroom
        obtain ⟨hcount, hle⟩ := full_eq_false.1 (eq_false_iff.2 hroom)
        have hc := h.control
        have hlimit := h.controlLimit
        have hrun : Running { q with
            controlBytes := q.controlBytes + payload.length, control := q.control ++ [⟨kind, payload⟩] } := by
          refine ⟨⟨?_, h.bulk, ?_, h.bulkLimit⟩, h.live, ?_, fun r hr n hn => ?_, h.bulkKinds, h.scope⟩
          · rw [payloadBytes_append, payloadBytes_single, ← hc]
          · simp only
            omega
          · rw [length_append, length_singleton]
            exact hcount
          · rcases mem_append.1 hr with hr | hr
            · exact h.sizes r hr n hn
            · obtain rfl := mem_singleton.1 hr
              exact hsize n hn
        refine .inr ⟨rfl, hrun, ?_⟩
        rw [queuedEvents_eq hrun, queuedEvents_eq h, flatMap_append, flatMap_singleton]

/-! ## One push -/

/-- A batch with a release drops the queued input and is then too long for what is left of the queue. -/
def Spills (q : Queue) : Call → Prop
  | .push kind payload =>
    kind = .inputBatch ∧ ∃ source geometry events index, decodeSourceInput payload = .ok (source, geometry, events) ∧
      rposition isRelease events = some index ∧ (∃ r ∈ q.control, r.kind = .inputBatch) ∧
      controlBytesLimit < payloadBytes (unfenced q.control) + (sourceInputBytes source geometry (events.drop index)).length
  | .pop => False

def KeepsRecords (q : Queue) : Call → Prop
  | .push kind payload =>
    ∀ error, (q.push kind payload).2 = .error error →
      (q.push kind payload).1.control = q.control ∧ (q.push kind payload).1.bulk = q.bulk
  | .pop => True

section

variable {q : Queue} {source geometry : BitVec 64} (h : Running q) (hs : source ≠ 0) (hg : geometry ≠ 0)
include h hs hg

theorem running_fenced :
    Running { q with inputScope := some (source, geometry), control := unfenced q.control,
                     controlBytes := payloadBytes (unfenced q.control) } where
  control := rfl
  bulk := h.bulk
  controlLimit := Nat.le_trans (payloadBytes_unfenced q.control) (h.control ▸ h.controlLimit)
  bulkLimit := h.bulkLimit
  live := h.live
  count := Nat.le_trans filter_sublist.length_le h.count
  sizes := fun r hr => h.sizes r (mem_unfenced.1 hr).1
  bulkKinds := h.bulkKinds
  scope := by
    intro s g heq
    obtain ⟨rfl, rfl⟩ := Prod.mk.inj (Option.some.inj heq)
    exact ⟨hs, hg⟩

theorem queuedEvents_fenced :
    queuedEvents { q with inputScope := some (source, geometry), control := unfenced q.control,
                          controlBytes := payloadBytes (unfenced q.control) } = [] := by
  rw [queuedEvents_eq (running_fenced h hs hg)]
  exact flatMap_other fun r hr => (mem_unfenced.1 hr).2

end

theorem push_live (h : Running q) (kind : MessageKind) (payload : List Byte) :
    q.push kind payload =
      if (expected kind).any (payload.length != ·) then (q, .error "invalid control record size")
      else
        match q.fence kind payload with
        | (q, .error error) => (q, .error error)
        | (q, .ok payload) => q.enqueue kind payload := by
  unfold Queue.push
  generalize hcheck : q.check = checked
  rw [h.live] at hcheck
  subst hcheck
  rfl

theorem size_of_expected
    (h : ¬ (expected kind).any (payload.length != ·) = true) (n : Nat) (hn : expected kind = some n) : payload.length = n := by
  rw [hn, Option.any_some, not_eq_true, bne_eq_false_iff_eq] at h
  exact h

theorem unfenced_eq_self (h : ¬ ∃ r ∈ control, r.kind = .inputBatch) : unfenced control = control := by
  rw [unfenced, filter_eq_self]
  intro r hr
  rw [bne_iff_ne]
  exact fun hk => h ⟨r, hr, hk⟩

theorem length_unfenced_lt (h : ∃ r ∈ control, r.kind = .inputBatch) : (unfenced control).length < control.length := by
  obtain ⟨r, hr, hk⟩ := h
  rw [unfenced, length_filter_lt_length_iff_exists]
  exact ⟨r, hr, by rw [hk]; decide⟩

/-- The batch that a fence leaves, queued behind the records that are no input. -/
theorem enqueue_fenced (h : Running q) {source geometry : BitVec 64} (hs : source ≠ 0) (hg : geometry ≠ 0)
    (payload : List Byte) :
    (Queue.enqueue { q with inputScope := some (source, geometry), control := unfenced q.control,
                            controlBytes := payloadBytes (unfenced q.control) } .inputBatch payload).2 = .error overloaded ↔
      controlRecords ≤ (unfenced q.control).length ∨
      controlBytesLimit < payloadBytes (unfenced q.control) + payload.length := by
  have hle : payloadBytes (unfenced q.control) ≤ controlBytesLimit := (running_fenced h hs hg).controlLimit
  rw [enqueue_control payload rfl rfl]
  dsimp only
  split
  · rename_i hfull
    unfold full at hfull
    rw [or_eq_true, decide_eq_true_eq, decide_eq_true_eq] at hfull
    refine ⟨fun _ => ?_, fun _ => rfl⟩
    omega
  · rename_i hroom
    obtain ⟨hcount, hbytes⟩ := full_eq_false.1 (eq_false_iff.2 hroom)
    refine ⟨fun h => ?_, fun h => ?_⟩
    · cases h
    · omega

/-- A push fails and leaves the records, or it spills, or its events are queued: behind those that were queued, or
without them when the batch releases everything. -/
theorem push_cases (h : Running q) (kind : MessageKind) (payload : List Byte) :
    Running (q.push kind payload).1 ∧
    ((∃ error, (q.push kind payload).2 = .error error ∧ (q.push kind payload).1.control = q.control ∧
        (q.push kind payload).1.bulk = q.bulk ∧ ¬ Spills q (.push kind payload)) ∨
     (∃ error, (q.push kind payload).2 = .error error ∧ (q.push kind payload).1.control ≠ q.control ∧
        Spills q (.push kind payload)) ∨
     ((q.push kind payload).2 = .ok () ∧ ¬ Spills q (.push kind payload) ∧
        (inputEvents ⟨kind, payload⟩).any isRelease = false ∧
        queuedEvents (q.push kind payload).1 = queuedEvents q ++ inputEvents ⟨kind, payload⟩) ∨
     ((q.push kind payload).2 = .ok () ∧ ¬ Spills q (.push kind payload) ∧
        (inputEvents ⟨kind, payload⟩).any isRelease = true ∧
        queuedEvents (q.push kind payload).1 = sinceLast isRelease (inputEvents ⟨kind, payload⟩))) := by
  -- only a batch with a release spills
  have hspill : ¬ (kind = .inputBatch ∧ (inputEvents ⟨kind, payload⟩).any isRelease = true) → ¬ Spills q (.push kind payload) := by
    rintro hno ⟨rfl, source, geometry, events, index, hd, hpos, -⟩
    rcases @rposition_release events with ⟨-, hnone⟩ | ⟨hany, -⟩
    · rw [hnone] at hpos
      cases hpos
    · exact hno ⟨rfl, by rw [inputEvents_batch hd, hany]⟩
  rw [push_live h]
  split
  · rename_i hbad
    refine ⟨h, .inl ⟨_, rfl, rfl, rfl, hspill ?_⟩⟩
    rintro ⟨rfl, -⟩
    cases hbad
  · rename_i hsize
    rcases fence_cases q kind payload with ⟨error, hd, hf⟩ | ⟨scope, hf, hscope, hnone⟩ |
      ⟨source, geometry, events, index, rfl, hd, hpos, hs, hg, hany, hd', hf⟩
    · rw [hf]
      refine ⟨h, .inl ⟨error, rfl, rfl, rfl, ?_⟩⟩
      rintro ⟨-, _, _, _, _, hd', -⟩
      rw [hd] at hd'
      cases hd'
    · rw [hf]
      have hrun : Running { q with inputScope := scope } := by
        refine ⟨⟨h.control, h.bulk, h.controlLimit, h.bulkLimit⟩, h.live, h.count, h.sizes, h.bulkKinds, ?_⟩
        intro s g hsg
        rcases hscope with rfl | ⟨source, geometry, rfl, hs, hg⟩
        · exact h.scope s g hsg
        · obtain ⟨rfl, rfl⟩ := Prod.mk.inj (Option.some.inj hsg)
          exact ⟨hs, hg⟩
      have hno := hspill fun ⟨_, hany⟩ => by rw [hnone] at hany; cases hany
      rcases enqueue_cases hrun (size_of_expected hsize) with he | ⟨hok, hrun', hevents⟩
      · dsimp only
        rw [he]
        exact ⟨hrun, .inl ⟨_, rfl, rfl, rfl, hno⟩⟩
      · exact ⟨hrun', .inr (.inr (.inl ⟨hok, hno, hnone, hevents⟩))⟩
    · rw [hf]
      have hrun := running_fenced h hs hg
      have hfull := enqueue_fenced h hs hg (sourceInputBytes source geometry (events.drop index))
      have hevents' : inputEvents ⟨.inputBatch, payload⟩ = events := inputEvents_batch hd
      rcases @enqueue_cases _ hrun .inputBatch (sourceInputBytes source geometry (events.drop index))
        (fun _ hn => nomatch hn) with he | ⟨hok, hrun', hevents⟩
      · dsimp only
        rw [he]
        rw [he] at hfull
        refine ⟨hrun, ?_⟩
        by_cases hinput : ∃ r ∈ q.control, r.kind = .inputBatch
        · have hlt := length_unfenced_lt hinput
          refine .inr (.inl ⟨_, rfl, fun heq => ?_, rfl, source, geometry, events, index, hd, hpos, hinput, ?_⟩)
          · have hlen : (unfenced q.control).length = q.control.length := congrArg List.length heq
            omega
          · rcases hfull.1 rfl with hcount | hbytes
            · have := h.count
              omega
            · exact hbytes
        · refine .inl ⟨_, rfl, unfenced_eq_self hinput, rfl, ?_⟩
          rintro ⟨-, _, _, _, _, -, -, hinput', -⟩
          exact hinput hinput'
      · refine ⟨hrun', .inr (.inr (.inr ⟨hok, ?_, by rw [hevents', hany], ?_⟩))⟩
        · rintro ⟨-, source', geometry', events'', index', hd'', hpos', -, hbytes⟩
          obtain ⟨rfl, rfl, rfl⟩ : source' = source ∧ geometry' = geometry ∧ events'' = events := by
            rw [hd''] at hd
            have := Except.ok.inj hd
            simpa using this
          obtain rfl := Option.some.inj (hpos'.symm.trans hpos)
          have herr := hfull.2 (.inr hbytes)
          rw [hok] at herr
          cases herr
        · rw [hevents, queuedEvents_fenced h hs hg, nil_append, inputEvents_batch hd', hevents']

/-! ## One pop -/

theorem pop_cases (h : Running q) :
    Running q.pop.1 ∧ (q.pop.2.toList.flatMap inputEvents ++ queuedEvents q.pop.1 = queuedEvents q) := by
  unfold Queue.pop
  split
  · rename_i record control hcontrol
    have hbytes := h.control
    have hlimit := h.controlLimit
    have hcount := h.count
    rw [hcontrol, payloadBytes_cons] at hbytes
    rw [hcontrol, length_cons] at hcount
    refine ⟨⟨⟨?_, h.bulk, ?_, h.bulkLimit⟩, h.live, ?_, fun r hr => ?_, h.bulkKinds, h.scope⟩, ?_⟩
    · simp only
      omega
    · simp only
      omega
    · exact Nat.le_of_succ_le hcount
    · exact h.sizes r (by rw [hcontrol]; exact mem_cons_of_mem _ hr)
    · rw [queuedEvents, queuedEvents, hcontrol, cons_append, flatMap_cons]
      exact congrArg (· ++ _) (flatMap_singleton inputEvents record)
  · rename_i hcontrol
    split
    · rename_i record bulk hbulk
      have hbytes := h.bulk
      have hlimit := h.bulkLimit
      rw [hbulk, payloadBytes_cons] at hbytes
      refine ⟨⟨⟨h.control, ?_, h.controlLimit, ?_⟩, h.live, h.count, h.sizes, fun r hr => ?_, h.scope⟩, ?_⟩
      · simp only
        omega
      · simp only
        omega
      · exact h.bulkKinds r (by rw [hbulk]; exact mem_cons_of_mem _ hr)
      · rw [queuedEvents, queuedEvents, hcontrol, hbulk, nil_append, nil_append, flatMap_cons]
        exact congrArg (· ++ _) (flatMap_singleton inputEvents record)
    · exact ⟨h, rfl⟩

theorem running_call (h : Running q) : ∀ call : Call, Running (q.call call).1
  | .push kind payload => (push_cases h kind payload).1
  | .pop => (pop_cases h).1

end Jwm.Remote.Sender
