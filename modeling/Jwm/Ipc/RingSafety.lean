/-
No message of a ring is lost or duplicated by its tasks: every step of every task, whoever has stopped, keeps
the cursors, the slots between them and the history of the messages in agreement.
-/
import Jwm.Ipc.RingTasks

namespace Jwm.Ipc.RingTasks

open List Option TypedRingBuffer Function

variable {τ M : Type}

/-! ## What the stores do to the stream -/

variable {i : Nat} {payload : M}

section Stored

variable [WireSafe M] {base : Nat} {s : RingTasks τ M}

namespace Stored

section

variable (h : Stored base s)
include h

theorem lt_of_returned (hi : i ∈ s.returnedAt) : i < s.fates.length :=
  (List.getElem?_eq_some_iff.1 ((h.returnedAt i).1 hi)).1

theorem pending : checkedPending s.ring.writeIdx s.ring.readIdx s.ring.bufferSize invalidDistance =
      .ok (BitVec.ofNat 32 (s.committed.length - s.fates.length)) := by
  rw [h.writeIdx, h.readIdx]
  exact pending_eq base s.ring h.behind h.room invalidDistance

theorem writeSlot (hroom : s.committed.length < s.fates.length + s.capacity) (slot : Slot M) :
    Stored base { s with ring := (s.ring.writeSlot (s.ring.slotIdx s.ring.writeIdx) slot).getD s.ring } := by
  have hcapacity : ∀ i, ((s.ring.writeSlot i slot).getD s.ring).capacityLog2 = s.ring.capacityLog2 := by
    intro i
    unfold TypedRingBuffer.writeSlot
    split <;> rfl
  have hwriteIdx : ∀ i, ((s.ring.writeSlot i slot).getD s.ring).writeIdx = s.ring.writeIdx := by
    intro i
    unfold TypedRingBuffer.writeSlot
    split <;> rfl
  have hreadIdx : ∀ i, ((s.ring.writeSlot i slot).getD s.ring).readIdx = s.ring.readIdx := by
    intro i
    unfold TypedRingBuffer.writeSlot
    split <;> rfl
  refine ⟨(hwriteIdx _).trans h.writeIdx, (hreadIdx _).trans h.readIdx, h.behind, ?_, ?_, h.increasing, h.returnedAt, h.returned⟩
  · show _ ≤ _ + 2 ^ _
    rw [hcapacity]
    exact h.room
  · intro i hfates hi
    have hi : i < s.committed.length := hi
    have hfates : s.fates.length ≤ i := hfates
    rw [h.writeIdx, slotAt_write, if_neg (slot_ne hi (by omega))]
    exact h.slots i hfates hi

theorem commit (hroom : s.committed.length < s.fates.length + s.capacity)
    (hslot : s.slotAt base s.committed.length = some (Slot.of payload)) :
    Stored base { s with ring := { s.ring with writeIdx := s.ring.writeIdx + 1 }, committed := s.committed ++ [payload] } := by
  have hlength : (s.committed ++ [payload]).length = s.committed.length + 1 := length_append
  refine ⟨?_, h.readIdx, ?_, ?_, ?_, h.increasing, h.returnedAt, ?_⟩
  · rw [h.writeIdx, hlength]
    exact (BitVec.ofNat_add (base + s.committed.length) 1).symm
  · show s.fates.length ≤ (s.committed ++ [payload]).length
    have := h.behind
    omega
  · show (s.committed ++ [payload]).length ≤ s.fates.length + s.capacity
    omega
  · intro i hfates hi
    have hi : i < (s.committed ++ [payload]).length := hi
    rcases Nat.lt_or_ge i s.committed.length with hlt | hge
    · rw [getElem?_append_left hlt]
      exact h.slots i hfates hlt
    · obtain rfl : i = s.committed.length := by omega
      rw [getElem?_concat_length]
      exact hslot
  · refine h.returned.trans (map_congr_left fun i hi => ?_)
    exact (getElem?_append_left (Nat.lt_of_lt_of_le (h.lt_of_returned hi) h.behind)).symm

theorem pass (hpending : s.fates.length < s.committed.length) {fate : Fate τ} (hfate : fate ≠ .returned) :
    Stored base { s with ring := { s.ring with readIdx := s.ring.readIdx + 1 }, fates := s.fates ++ [fate] } := by
  have hlength : (s.fates ++ [fate]).length = s.fates.length + 1 := length_append
  refine ⟨h.writeIdx, ?_, ?_, ?_, ?_, h.increasing, ?_, h.returned⟩
  · rw [h.readIdx, hlength]
    exact (BitVec.ofNat_add (base + s.fates.length) 1).symm
  · show (s.fates ++ [fate]).length ≤ s.committed.length
    omega
  · show s.committed.length ≤ (s.fates ++ [fate]).length + s.capacity
    have := h.room
    omega
  · intro i hfates hi
    have hfates : (s.fates ++ [fate]).length ≤ i := hfates
    exact h.slots i (by omega) hi
  · intro i
    refine (h.returnedAt i).trans ?_
    show s.fates[i]? = some .returned ↔ (s.fates ++ [fate])[i]? = some .returned
    rcases Nat.lt_trichotomy i s.fates.length with hlt | rfl | hgt
    · rw [getElem?_append_left hlt]
    · rw [getElem?_concat_length, getElem?_eq_none (Nat.le_refl _)]
      simp [hfate]
    · rw [getElem?_eq_none (by omega), getElem?_eq_none (by omega)]

theorem ret (hi : i + 1 = s.fates.length) (hfate : s.fates[i]? ≠ some .returned) (hpayload : s.committed[i]? = some payload) :
    Stored base { s with
      returned := s.returned ++ [payload], returnedAt := s.returnedAt ++ [i], fates := s.fates.set i .returned } := by
  have hlength : (s.fates.set i .returned).length = s.fates.length := length_set
  refine ⟨h.writeIdx, ?_, ?_, ?_, ?_, ?_, ?_, ?_⟩
  · rw [hlength]
    exact h.readIdx
  · rw [hlength]
    exact h.behind
  · rw [hlength]
    exact h.room
  · intro j hfates hj
    have hfates : (s.fates.set i .returned).length ≤ j := hfates
    exact h.slots j (by omega) hj
  · refine pairwise_append.2 ⟨h.increasing, pairwise_singleton _ _, ?_⟩
    intro j hj k hk
    obtain rfl := mem_singleton.1 hk
    have hlt := h.lt_of_returned hj
    rcases Nat.lt_or_ge j k with hjk | hjk
    · exact hjk
    · obtain rfl : j = k := by omega
      exact absurd ((h.returnedAt j).1 hj) hfate
  · intro j
    rw [mem_append, mem_singleton, h.returnedAt j, getElem?_set]
    by_cases hij : i = j
    · subst hij
      rw [if_pos rfl, if_pos (by omega)]
      simp
    · rw [if_neg hij]
      exact ⟨fun hj => hj.resolve_right fun heq => hij heq.symm, Or.inl⟩
  · rw [map_append, map_append, h.returned, map_singleton, map_singleton, hpayload]

end

end Stored

end Stored

/-! ## One step -/

section Act

variable [WireSafe M] {base : Nat} {s s' : RingTasks τ M} {t u : τ}

theorem Consistent.write_excludes (h : Consistent base s) (hu : s.stopped u = false) (hlocks : (s.tasks u).locksWrite = true)
    (hne : u ≠ t) (ht : s.stopped t = false) :
    ¬ (s.lockFree s.writeLock = true ∨ (s.tasks t).locksWrite = true) := by
  have hlock := h.writeLock u hu hlocks
  rintro (hfree | hown)
  · rw [hlock] at hfree
    exact absurd (hu.symm.trans hfree) (by decide)
  · exact hne (some.inj (hlock.symm.trans (h.writeLock t ht hown)))

theorem Consistent.read_excludes (h : Consistent base s) (hu : s.stopped u = false) (hlocks : (s.tasks u).locksRead = true)
    (hne : u ≠ t) (ht : s.stopped t = false) :
    ¬ (s.lockFree s.readLock = true ∨ (s.tasks t).locksRead = true) := by
  have hlock := h.readLock u hu hlocks
  rintro (hfree | hown)
  · rw [hlock] at hfree
    exact absurd (hu.symm.trans hfree) (by decide)
  · exact hne (some.inj (hlock.symm.trans (h.readLock t ht hown)))

variable [DecidableEq τ]

/-- A step of the live task `t`: it changes what is guarded only in the section of its lock, and takes a lock only
when that is free. -/
structure Act (base : Nat) (s s' : RingTasks τ M) (t : τ) (task : Task M) : Prop where
  stored : Stored base s'
  tasks : s'.tasks = Function.update s.tasks t task
  stopped : s'.stopped = s.stopped
  capacity : s'.capacity = s.capacity
  write : (s.tasks t).locksWrite = true ∨ s'.ring.writeIdx = s.ring.writeIdx ∧ s'.committed = s.committed ∧
    s'.slotAt base s.committed.length = s.slotAt base s.committed.length
  read : (s.tasks t).locksRead = true ∨ s'.ring.readIdx = s.ring.readIdx ∧ s'.fates = s.fates
  committed : s.committed <+: s'.committed
  fates : s.fates.length ≤ s'.fates.length
  writeLock : s'.writeLock = s.writeLock ∨ s.lockFree s.writeLock = true ∨ (s.tasks t).locksWrite = true
  readLock : s'.readLock = s.readLock ∨ s.lockFree s.readLock = true ∨ (s.tasks t).locksRead = true
  locksWrite : task.locksWrite = true → s'.writeLock = some t
  locksRead : task.locksRead = true → s'.readLock = some t
  ok : s'.TaskOk base t task
  taken : ∀ i u, s'.fates[i]? = some (.taken u) → ∃ slot, s'.tasks u = .read (.unlock (some (i, slot)))

variable {task : Task M}

theorem Consistent.act (h : Consistent base s) (ht : s.stopped t = false) (a : Act base s s' t task) :
    Consistent base s' := by
  have hsame : s'.tasks t = task := by rw [a.tasks, update_self]
  have hother : ∀ {u}, u ≠ t → s'.tasks u = s.tasks u := fun hne => by rw [a.tasks, update_of_ne hne]
  refine ⟨a.stored, ?_, ?_, ?_, a.taken⟩
  · intro u hu hlocks
    rw [a.stopped] at hu
    by_cases hut : u = t
    · subst hut
      rw [hsame] at hlocks
      exact a.locksWrite hlocks
    · rw [hother hut] at hlocks
      rcases a.writeLock with heq | hchanged
      · exact heq.trans (h.writeLock u hu hlocks)
      · exact absurd hchanged (h.write_excludes hu hlocks hut ht)
  · intro u hu hlocks
    rw [a.stopped] at hu
    by_cases hut : u = t
    · subst hut
      rw [hsame] at hlocks
      exact a.locksRead hlocks
    · rw [hother hut] at hlocks
      rcases a.readLock with heq | hchanged
      · exact heq.trans (h.readLock u hu hlocks)
      · exact absurd hchanged (h.read_excludes hu hlocks hut ht)
  · intro u hu
    rw [a.stopped] at hu
    by_cases hut : u = t
    · subst hut
      rw [hsame]
      exact a.ok
    · rw [hother hut]
      refine (h.task u hu).mono a.capacity ?_ ?_ a.committed a.fates
      · intro hlocks
        exact a.write.resolve_left fun hown => h.write_excludes hu hlocks hut ht (.inr hown)
      · intro hlocks
        exact a.read.resolve_left fun hown => h.read_excludes hu hlocks hut ht (.inr hown)

theorem Consistent.taken_update (h : Consistent base s) (hnot : ∀ c, s.tasks t ≠ .read (.unlock (some c))) :
    ∀ i u, s.fates[i]? = some (.taken u) → ∃ slot, Function.update s.tasks t task u = .read (.unlock (some (i, slot))) := by
  intro i u hi
  obtain ⟨slot, hslot⟩ := h.taken i u hi
  have hne : u ≠ t := by
    rintro rfl
    exact hnot _ hslot
  exact ⟨slot, by rw [update_of_ne hne, hslot]⟩

section

variable (h : Consistent base s) (ht : s.stopped t = false)
include h ht

theorem Consistent.relock (hnot : ∀ c, s.tasks t ≠ .read (.unlock (some c))) (wl rl : Option τ)
    (hwl : wl = s.writeLock ∨ s.lockFree s.writeLock = true ∨ (s.tasks t).locksWrite = true)
    (hrl : rl = s.readLock ∨ s.lockFree s.readLock = true ∨ (s.tasks t).locksRead = true) (hw : task.locksWrite = true → wl = some t)
    (hr : task.locksRead = true → rl = some t) (hok : s.TaskOk base t task) :
    Consistent base ({ s with writeLock := wl, readLock := rl }.goto t task) := by
  have hstored : Stored base ({ s with writeLock := wl, readLock := rl }.goto t task) :=
    ⟨h.writeIdx, h.readIdx, h.behind, h.room, h.slots, h.increasing, h.returnedAt, h.returned⟩
  have hkept : ({ s with writeLock := wl, readLock := rl }.goto t task).TaskOk base t task :=
    hok.mono rfl (fun _ => ⟨rfl, rfl, rfl⟩) (fun _ => ⟨rfl, rfl⟩) prefix_rfl (Nat.le_refl _)
  have hact : Act base s ({ s with writeLock := wl, readLock := rl }.goto t task) t task :=
    ⟨hstored, rfl, rfl, rfl, .inr ⟨rfl, rfl, rfl⟩, .inr ⟨rfl, rfl⟩, prefix_rfl, Nat.le_refl _, hwl, hrl, hw, hr, hkept,
      h.taken_update hnot⟩
  exact h.act ht hact

theorem Consistent.goto (hnot : ∀ c, s.tasks t ≠ .read (.unlock (some c))) (hw : task.locksWrite = true → s.writeLock = some t)
    (hr : task.locksRead = true → s.readLock = some t) (hok : s.TaskOk base t task) : Consistent base (s.goto t task) :=
  h.relock ht hnot s.writeLock s.readLock (.inl rfl) (.inl rfl) hw hr hok

/-- The slot past the newest message is written by a task in the write section. -/
theorem Consistent.writeSlot (hlocks : (s.tasks t).locksWrite = true) (hroom : s.committed.length < s.fates.length + s.capacity)
    (hread : (s.tasks t).locksRead = false) (slot : Slot M) (hr : task.locksRead = false)
    (hok : ∀ s' : RingTasks τ M, s'.ring.writeIdx = s.ring.writeIdx → s'.committed = s.committed → s'.fates = s.fates → s'.capacity = s.capacity → s'.slotAt base s.committed.length = some slot → s'.TaskOk base t task) :
    Consistent base
      ({ s with ring := (s.ring.writeSlot (s.ring.slotIdx s.ring.writeIdx) slot).getD s.ring }.goto t task) := by
  have hstored := h.toStored.writeSlot hroom slot
  have hring : (s.ring.writeSlot (s.ring.slotIdx s.ring.writeIdx) slot).getD s.ring =
      s.ring.withSlot (s.ring.slotIdx s.ring.writeIdx) slot := by
    unfold TypedRingBuffer.writeSlot
    rw [if_pos (s.ring.slotIdx_lt _)]
    rfl
  have hslot : slotAt base { s with ring := (s.ring.writeSlot (s.ring.slotIdx s.ring.writeIdx) slot).getD s.ring }
      s.committed.length = some slot := by
    rw [h.writeIdx, slotAt_write, if_pos rfl]
  rw [hring] at hstored hslot ⊢
  have hnot : ∀ c, s.tasks t ≠ .read (.unlock (some c)) := by
    intro c hc
    rw [hc] at hread
    cases hread
  have hact : Act base s ({ s with ring := s.ring.withSlot (s.ring.slotIdx s.ring.writeIdx) slot }.goto t task) t task :=
    ⟨⟨hstored.writeIdx, hstored.readIdx, hstored.behind, hstored.room, hstored.slots, hstored.increasing, hstored.returnedAt,
      hstored.returned⟩, rfl, rfl, rfl, .inl hlocks, .inr ⟨rfl, rfl⟩, prefix_rfl, Nat.le_refl _, .inl rfl, .inl rfl,
      fun _ => h.writeLock t ht hlocks, fun hlocked => absurd (hr.symm.trans hlocked) (by decide),
      hok _ rfl rfl rfl rfl hslot, h.taken_update hnot⟩
  exact h.act ht hact

end

theorem Consistent.pass (h : Consistent base s) (ht : s.stopped t = false) (hlocks : (s.tasks t).locksRead = true)
    (hpending : s.fates.length < s.committed.length) (fate : Fate τ) (hfate : fate ≠ .returned)
    (hnot : ∀ c, s.tasks t ≠ .read (.unlock (some c)))
    (hw : task.locksWrite = true → s.writeLock = some t) (hr : task.locksRead = true → s.readLock = some t)
    (hok : ({ s with ring := { s.ring with readIdx := s.ring.readIdx + 1 }, fates := s.fates ++ [fate] }.goto t task).TaskOk base t task)
    (htaken : ∀ u, fate = .taken u → u = t ∧ ∃ slot, task = .read (.unlock (some (s.fates.length, slot)))) :
    Consistent base
      ({ s with ring := { s.ring with readIdx := s.ring.readIdx + 1 }, fates := s.fates ++ [fate] }.goto t task) := by
  have hstored := h.toStored.pass hpending hfate
  have hlength : (s.fates ++ [fate]).length = s.fates.length + 1 := length_append
  have hact : Act base s ({ s with ring := { s.ring with readIdx := s.ring.readIdx + 1 }, fates := s.fates ++ [fate] }.goto t task)
      t task := by
    refine ⟨⟨hstored.writeIdx, hstored.readIdx, hstored.behind, hstored.room, hstored.slots, hstored.increasing,
      hstored.returnedAt, hstored.returned⟩, rfl, rfl, rfl, .inr ⟨rfl, rfl, rfl⟩, .inl hlocks, prefix_rfl,
      ?_, .inl rfl, .inl rfl, hw, hr, hok, ?_⟩
    · show s.fates.length ≤ (s.fates ++ [fate]).length
      omega
    · intro i u hi
      have hi : (s.fates ++ [fate])[i]? = some (.taken u) := hi
      rcases Nat.lt_trichotomy i s.fates.length with hlt | rfl | hgt
      · rw [getElem?_append_left hlt] at hi
        exact h.taken_update hnot i u hi
      · rw [getElem?_concat_length] at hi
        obtain ⟨rfl, slot, rfl⟩ := htaken u (some.inj hi)
        exact ⟨slot, update_self ..⟩
      · rw [getElem?_eq_none (by omega)] at hi
        cases hi
  exact h.act ht hact

end Act

/-! ## Runs -/

section Run

variable [WireSafe M] [DecidableEq τ] {base : Nat} {s : RingTasks τ M} {t : τ}

theorem Consistent.stepWrite (h : Consistent base s) (ht : s.stopped t = false) {overwrite : Bool} {next : WriteStep}
    (htask : s.tasks t = .write payload overwrite next) (giveUp : Bool) (torn : Slot M) :
    Consistent base (s.stepWrite t payload overwrite giveUp torn next) := by
  have hnot : ∀ c, s.tasks t ≠ .read (.unlock (some c)) := fun c hc => nomatch htask.symm.trans hc
  have hok := h.task t ht
  have hw := h.writeLock t ht
  have hr := h.readLock t ht
  rw [htask] at hok hw hr
  cases next with
  | start =>
    simp only [RingTasks.stepWrite]
    split
    · exact h.goto ht hnot nofun nofun trivial
    · exact h.goto ht hnot nofun nofun trivial
  | lock =>
    show Consistent base (if giveUp then _ else if s.lockFree s.writeLock then _ else s)
    split
    · exact h.goto ht hnot nofun nofun trivial
    split
    next hfree =>
      exact h.relock ht hnot (some t) s.readLock (.inr (.inl hfree)) (.inl rfl) (fun _ => rfl) nofun trivial
    · exact h
  | check =>
    refine h.goto ht hnot (fun _ => hw rfl) ?_ ?_ <;> split <;> trivial
  | loadWrite => exact h.goto ht hnot (fun _ => hw rfl) nofun rfl
  | loadRead w =>
    obtain rfl : w = s.ring.writeIdx := hok
    simp only [RingTasks.stepWrite, h.pending]
    split
    · refine h.goto ht hnot (fun _ => hw rfl) ?_ ?_ <;> split <;> trivial
    next hfull =>
      rw [ofNat_eq_bufferSize s.ring h.behind h.room] at hfull
      exact h.goto ht hnot (fun _ => hw rfl) nofun ⟨rfl, Nat.lt_of_le_of_ne h.room hfull⟩
  | lockRead w =>
    show Consistent base (if giveUp then _ else if s.lockFree s.readLock then _ else s)
    split
    · exact h.goto ht hnot (fun _ => hw rfl) nofun trivial
    split
    next hfree =>
      exact h.relock ht hnot s.writeLock (some t) (.inl rfl) (.inr (.inl hfree)) (fun _ => hw rfl) (fun _ => rfl) hok
    · exact h
  | checkRead w =>
    refine h.goto ht hnot (fun _ => hw rfl) (fun _ => hr rfl) ?_
    split <;> exact hok
  | reloadRead w =>
    obtain rfl : w = s.ring.writeIdx := hok
    simp only [RingTasks.stepWrite, h.pending]
    split
    next hfull =>
      rw [ofNat_eq_bufferSize s.ring h.behind h.room] at hfull
      exact h.goto ht hnot (fun _ => hw rfl) (fun _ => hr rfl) ⟨rfl, rfl, hfull⟩
    next hfull =>
      rw [ofNat_eq_bufferSize s.ring h.behind h.room] at hfull
      exact h.goto ht hnot (fun _ => hw rfl) (fun _ => hr rfl) ⟨rfl, Nat.lt_of_le_of_ne h.room hfull⟩
  | dropOldest w r =>
    obtain ⟨rfl, rfl, hfull⟩ := hok
    have hpos : 0 < s.capacity := Nat.two_pow_pos _
    refine h.pass ht (by rw [htask]; rfl) (by omega) .dropped nofun hnot (fun _ => hw rfl) (fun _ => hr rfl) ⟨rfl, ?_⟩ nofun
    show s.committed.length < (s.fates ++ [Fate.dropped]).length + s.capacity
    rw [length_append, length_singleton]
    omega
  | unlockRead w ok =>
    refine h.relock ht hnot s.writeLock none (.inl rfl) (.inr (.inr (by rw [htask]; rfl))) (fun _ => hw rfl) ?_ ?_
    · split <;> nofun
    · cases ok with
      | true => exact hok
      | false => trivial
  | copy w =>
    obtain ⟨rfl, hroom⟩ := hok
    refine h.writeSlot ht (by rw [htask]; rfl) hroom (by rw [htask]; rfl) torn rfl ?_
    intro s' hwriteIdx hcommitted hfates hcapacity _
    refine ⟨hwriteIdx.symm, ?_⟩
    rw [hcommitted, hfates, hcapacity]
    exact hroom
  | copying w =>
    obtain ⟨rfl, hroom⟩ := hok
    refine h.writeSlot ht (by rw [htask]; rfl) hroom (by rw [htask]; rfl) (Slot.of payload) rfl ?_
    intro s' hwriteIdx hcommitted hfates hcapacity hslot
    refine ⟨hwriteIdx.symm, ?_, ?_⟩
    · rw [hcommitted, hfates, hcapacity]
      exact hroom
    · rw [hcommitted]
      exact hslot
  | commit w =>
    obtain ⟨rfl, hroom, hslot⟩ := hok
    have hstored := h.toStored.commit hroom hslot
    have hact : Act base s
        ({ s with ring := { s.ring with writeIdx := s.ring.writeIdx + 1 }, committed := s.committed ++ [payload] }.goto t
          (.write payload overwrite .unlock)) t (.write payload overwrite .unlock) :=
      ⟨⟨hstored.writeIdx, hstored.readIdx, hstored.behind, hstored.room, hstored.slots, hstored.increasing,
        hstored.returnedAt, hstored.returned⟩, rfl, rfl, rfl, .inl (by rw [htask]; rfl), .inr ⟨rfl, rfl⟩,
        prefix_append _ _, Nat.le_refl _, .inl rfl, .inl rfl, fun _ => hw rfl, nofun, trivial, h.taken_update hnot⟩
    exact h.act ht hact
  | unlock => exact h.relock ht hnot none s.readLock (.inr (.inr (by rw [htask]; rfl))) (.inl rfl) nofun nofun trivial

theorem Consistent.stepRead (h : Consistent base s) (ht : s.stopped t = false) {next : ReadStep M}
    (htask : s.tasks t = .read next) (giveUp : Bool) : Consistent base (s.stepRead t giveUp next) := by
  have hok := h.task t ht
  have hr := h.readLock t ht
  rw [htask] at hok hr
  have hnot : ∀ {next}, s.tasks t = .read next → (∀ c, next ≠ .unlock (some c)) → ∀ c, s.tasks t ≠ .read (.unlock (some c)) := by
    intro next htask hne c hc
    rw [htask] at hc
    exact hne c (Task.read.inj hc)
  cases next with
  | start =>
    simp only [RingTasks.stepRead]
    split
    · exact h.goto ht (hnot htask nofun) nofun nofun trivial
    · exact h.goto ht (hnot htask nofun) nofun nofun trivial
  | lock =>
    show Consistent base (if giveUp then _ else if s.lockFree s.readLock then _ else s)
    split
    · exact h.goto ht (hnot htask nofun) nofun nofun trivial
    split
    next hfree =>
      exact h.relock ht (hnot htask nofun) s.writeLock (some t) (.inl rfl) (.inr (.inl hfree)) nofun (fun _ => rfl) trivial
    · exact h
  | check =>
    refine h.goto ht (hnot htask nofun) nofun (fun _ => hr rfl) ?_
    split <;> trivial
  | loadWrite => exact h.goto ht (hnot htask nofun) nofun (fun _ => hr rfl) ⟨s.committed.length, h.behind, Nat.le_refl _, h.writeIdx⟩
  | loadRead w =>
    -- the write cursor may have moved on since it was loaded
    obtain ⟨n, hn, hle, rfl⟩ := hok
    have hroom : n ≤ s.fates.length + s.capacity := hle.trans h.room
    have hpending := pending_eq base s.ring hn hroom invalidDistance
    rw [← h.readIdx] at hpending
    simp only [RingTasks.stepRead, hpending]
    refine h.goto ht (hnot htask nofun) nofun (fun _ => hr rfl) ?_
    split
    · trivial
    next hzero =>
      rw [ofNat_eq_zero s.ring hn hroom] at hzero
      exact ⟨rfl, by omega⟩
  | copy r => exact h.goto ht (hnot htask nofun) nofun (fun _ => hr rfl) hok
  | copying r =>
    obtain ⟨rfl, hpending⟩ := hok
    have hslot := h.slots s.fates.length (Nat.le_refl _) hpending
    have hread : s.ring.readSlot (s.ring.slotIdx s.ring.readIdx) = s.slotAt base s.fates.length := by
      rw [h.readIdx, slotIdx_ofNat]
      rfl
    rw [getElem?_eq_getElem hpending, map_some] at hslot
    simp only [RingTasks.stepRead, hread, hslot]
    refine h.goto ht (hnot htask nofun) nofun (fun _ => hr rfl) ⟨rfl, hpending, ?_⟩
    rw [getElem?_eq_getElem hpending, map_some]
  | advance r slot =>
    obtain ⟨rfl, hpending, hslot⟩ := hok
    refine h.pass ht (by rw [htask]; rfl) hpending (.taken t) nofun (hnot htask nofun) nofun (fun _ => hr rfl) ⟨?_, ?_, hslot⟩ ?_
    · show s.fates.length + 1 = (s.fates ++ [Fate.taken t]).length
      rw [length_append, length_singleton]
    · exact getElem?_concat_length
    · intro u hu
      exact ⟨(Fate.taken.inj hu).symm, slot, rfl⟩
  | unlock taken =>
    cases taken with
    | none => exact h.relock ht (hnot htask nofun) s.writeLock none (.inl rfl) (.inr (.inr (by rw [htask]; rfl))) nofun nofun trivial
    | some c =>
      obtain ⟨i, slot⟩ := c
      obtain ⟨hi, hfate, hslot⟩ := hok
      obtain ⟨payload, hpayload, rfl⟩ := map_eq_some_iff.1 hslot
      have hcheck : checkSlot (Slot.of payload) "message checksum mismatch" = .ok (some payload) := by
        unfold checkSlot
        rw [if_pos (by simp [Slot.intact, Slot.of])]
        rfl
      simp only [RingTasks.stepRead, hcheck]
      have hstored := h.toStored.ret hi (by rw [hfate]; nofun) hpayload
      have hact : Act base s
          { { s with readLock := none }.goto t .idle with
            returned := s.returned ++ [payload], returnedAt := s.returnedAt ++ [i], fates := s.fates.set i .returned } t .idle := by
        refine ⟨⟨hstored.writeIdx, hstored.readIdx, hstored.behind, hstored.room, hstored.slots, hstored.increasing,
          hstored.returnedAt, hstored.returned⟩, rfl, rfl, rfl, .inr ⟨rfl, rfl, rfl⟩, .inl (by rw [htask]; rfl), prefix_rfl,
          Nat.le_of_eq length_set.symm, .inl rfl, .inr (.inr (by rw [htask]; rfl)), nofun, nofun, trivial, ?_⟩
        intro j u hj
        have hj : (s.fates.set i .returned)[j]? = some (.taken u) := hj
        have hij : i ≠ j := by
          rintro rfl
          rw [getElem?_set_self (by omega)] at hj
          cases hj
        rw [getElem?_set_ne hij] at hj
        obtain ⟨slot, hslot⟩ := h.taken j u hj
        have hne : u ≠ t := by
          rintro rfl
          rw [htask] at hslot
          exact hij (congrArg Prod.fst (some.inj (ReadStep.unlock.inj (Task.read.inj hslot))))
        exact ⟨slot, (update_of_ne hne ..).trans hslot⟩
      exact h.act ht hact

theorem Consistent.step (h : Consistent base s) (event : RingEvent τ M) : Consistent base (s.step event).1 := by
  cases event with
  | write t payload overwrite | read t =>
    simp only [RingTasks.step]
    split
    next ht htask =>
      exact h.goto ht (fun c hc => nomatch htask.symm.trans hc) nofun nofun trivial
    · exact h
  | step t giveUp torn =>
    simp only [RingTasks.step]
    split
    next ht htask => exact h.stepWrite ht htask giveUp torn
    next ht htask => exact h.stepRead ht htask giveUp
    · exact h
  | stop t =>
    have hlive : ∀ {u}, Function.update s.stopped t true u = false → s.stopped u = false := by
      intro u hu
      by_cases hut : u = t
      · subst hut
        rw [update_self] at hu
        cases hu
      · rwa [update_of_ne hut] at hu
    exact ⟨⟨h.writeIdx, h.readIdx, h.behind, h.room, h.slots, h.increasing, h.returnedAt, h.returned⟩,
      fun u hu => h.writeLock u (hlive hu), fun u hu => h.readLock u (hlive hu),
      fun u hu => (h.task u (hlive hu)).mono rfl (fun _ => ⟨rfl, rfl, rfl⟩) (fun _ => ⟨rfl, rfl⟩) prefix_rfl (Nat.le_refl _), h.taken⟩
  | destroy =>
    exact ⟨⟨h.writeIdx, h.readIdx, h.behind, h.room, h.slots, h.increasing, h.returnedAt, h.returned⟩,
      h.writeLock, h.readLock,
      fun u hu => (h.task u hu).mono rfl (fun _ => ⟨rfl, rfl, rfl⟩) (fun _ => ⟨rfl, rfl⟩) prefix_rfl (Nat.le_refl _), h.taken⟩

theorem run_consistent {ring : TypedRingBuffer M} (hring : ring.writeIdx = ring.readIdx) (events : List (RingEvent τ M)) :
    Consistent ring.readIdx.toNat (after step (new ring) events) :=
  after_invariant (fun _ event h => h.step event) (Consistent.new hring) events

end Run

section Results

variable [WireSafe M] {base : Nat} {s : RingTasks τ M}

/-- The messages between the cursors are those that were committed and not passed. -/
theorem Stored.distance (h : Stored base s) : s.committed.length = s.fates.length + s.ring.distance := by
  have hcapacity := s.ring.capacity_le
  have hroom : s.committed.length ≤ s.fates.length + 2 ^ s.ring.capacityLog2 := h.room
  have hbehind := h.behind
  have hsub : s.ring.writeIdx - s.ring.readIdx = BitVec.ofNat 32 (s.committed.length - s.fates.length) := by
    have hpending := h.pending
    simp only [checkedPending] at hpending
    split at hpending
    · cases hpending
    · exact Except.ok.inj hpending
  rw [TypedRingBuffer.distance, hsub, BitVec.toNat_ofNat, Nat.mod_eq_of_lt (by omega)]
  omega

/-- The slot being written is past the newest message, the slot being read is that of the oldest. -/
theorem Consistent.copies_apart (h : Consistent base s) {t u : τ} {w r : BitVec 32} (ht : s.stopped t = false) (hu : s.stopped u = false)
    (hin : (s.tasks t).copyingIn = some w) (hout : (s.tasks u).copyingOut = some r) : s.ring.slotIdx w ≠ s.ring.slotIdx r := by
  have hwriter := h.task t ht
  have hreader := h.task u hu
  revert hin hout
  cases htask : s.tasks t with
  | idle | read next => nofun
  | write payload overwrite next =>
    rw [htask] at hwriter
    cases next with
    | copying writeIdx =>
      cases htask' : s.tasks u with
      | idle | write payload overwrite next => nofun
      | read next =>
        rw [htask'] at hreader
        cases next with
        | copying readIdx =>
          rintro ⟨⟩ ⟨⟩
          obtain ⟨rfl, hroom⟩ := hwriter
          obtain ⟨rfl, hpending⟩ := hreader
          rw [h.writeIdx, h.readIdx, slotIdx_ofNat, slotIdx_ofNat]
          exact (slot_ne hpending hroom).symm
        | _ => nofun
    | _ => nofun

theorem Consistent.fate (h : Consistent base s) (i : Nat) :
    i ∈ s.returnedAt ∨ s.fates[i]? = some .dropped ∨ (∃ t slot, s.tasks t = .read (.unlock (some (i, slot)))) ∨
      s.fates.length ≤ i := by
  rcases Nat.lt_or_ge i s.fates.length with hlt | hge
  · have hfate := getElem?_eq_getElem hlt
    cases hget : s.fates[i] with
    | returned =>
      rw [hget] at hfate
      exact .inl ((h.returnedAt i).2 hfate)
    | dropped =>
      rw [hget] at hfate
      exact .inr (.inl hfate)
    | taken t =>
      rw [hget] at hfate
      obtain ⟨slot, hslot⟩ := h.taken i t hfate
      exact .inr (.inr (.inl ⟨t, slot, hslot⟩))
  · exact .inr (.inr (.inr hge))

end Results

section Main

variable [WireSafe M] [DecidableEq τ]

/-- Over every interleaving of tasks that may stop anywhere, no slot is read while it is written, reads return what was
committed, in order and once, and a committed message that no read returned was dropped by an overwrite, is with a reader, or
lies between the cursors. -/
theorem no_message_lost {ring : TypedRingBuffer M} (hring : ring.writeIdx = ring.readIdx) (events : List (RingEvent τ M)) :
    let s := after step (new ring) events
    s.ring.distance ≤ 2 ^ s.ring.capacityLog2 ∧
    (∀ t u w r, s.stopped t = false → s.stopped u = false → (s.tasks t).copyingIn = some w → (s.tasks u).copyingOut = some r →
      s.ring.slotIdx w ≠ s.ring.slotIdx r) ∧
    s.returnedAt.Pairwise (· < ·) ∧ s.returned.map some = s.returnedAt.map (s.committed[·]?) ∧
    s.committed.length = s.fates.length + s.ring.distance ∧
    ∀ i < s.committed.length, i ∈ s.returnedAt ∨ s.fates[i]? = some .dropped ∨
      (∃ t slot, s.tasks t = .read (.unlock (some (i, slot)))) ∨ s.fates.length ≤ i := by
  intro s
  have h : Consistent ring.readIdx.toNat s := run_consistent hring events
  have hdistance := h.distance
  refine ⟨?_, fun t u w r => h.copies_apart, h.increasing, h.returned, hdistance, fun i _ => h.fate i⟩
  have hroom : s.committed.length ≤ s.fates.length + 2 ^ s.ring.capacityLog2 := h.room
  omega

/-- A ring of one slot whose cursors are about to wrap: the lock of a reader that stopped is taken over for an overwrite, and
the third message is returned. -/
def takeoverRun : List (RingEvent Bool Byte) :=
  .write false 1 false :: List.replicate 9 (.step false false ⟨0, 0⟩) ++
  .read true :: List.replicate 8 (.step true false ⟨0, 0⟩) ++ .stop true ::
  .write false 2 true :: List.replicate 9 (.step false false ⟨0, 0⟩) ++
  .write false 3 true :: List.replicate 14 (.step false false ⟨0, 0⟩) ++
  .read false :: List.replicate 9 (.step false false ⟨0, 0⟩)

theorem no_message_lost_takeover :
    let ring : TypedRingBuffer Byte := ⟨0, [⟨0, 0⟩], 0xffffffff, 0xffffffff, false, by decide, rfl⟩
    let s := after step (new ring) takeoverRun
    s.committed = [1, 2, 3] ∧ s.returned = [3] ∧ s.fates = [.taken true, .dropped, .returned] ∧
      s.returned.map some = s.returnedAt.map (s.committed[·]?) := by
  intro ring s
  have hring : ring.writeIdx = ring.readIdx := rfl
  have h := no_message_lost hring takeoverRun
  exact ⟨by decide +kernel, by decide +kernel, by decide +kernel, h.2.2.2.1⟩

end Main

end Jwm.Ipc.RingTasks
