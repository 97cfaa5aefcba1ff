/-
The usage meter neither loses nor counts twice. Compaction moves amounts from records to summaries, whole or in
part; every other call changes one record and one booking alike, so each day's bookings stay balanced by its
records and summaries.
-/
import Jwm.Eva.Usage

namespace Jwm.Eva

open List Option UsageRecord UsageSummary KeyMap UsageWorld KeyMap

/-! ## A day's total -/

def bookedOn (day : String) (bookings : List Booking) : Nat :=
  ((bookings.filter fun b => b.day = day).map Booking.amount).sum

variable {summary : UsageSummary} {m : UsageMeter} {r' : UsageRecord} {answer : UsageAnswer}

namespace UsageMeter

def recordsOn (day : String) (records : KeyMap String UsageRecord) : Nat :=
  records.sumBy fun _ r => if r.day = day then r.amount else 0

def versionsTotal (versions : PriceSummaries) : Nat := versions.sumBy fun _ s => s.settledMicrousd

def modelsTotal (models : ModelSummaries) : Nat := models.sumBy fun _ versions => versionsTotal versions

def summariesOn (day : String) (summaries : DaySummaries) : Nat := (summaries.get? day).elim 0 modelsTotal

def totalOn (m : UsageMeter) (day : String) : Nat := summariesOn day m.summaries + recordsOn day m.records

theorem sum_filter_records (day : String) (l : List (String × UsageRecord)) :
    ((((l.map Prod.snd).filter fun r => r.day = day)).map amount).sum =
      (l.map fun e => if e.2.day = day then e.2.amount else 0).sum := by
  induction l with
  | nil => rfl
  | cons e l ih =>
    rw [map_cons, filter_cons, map_cons, sum_cons, ← ih]
    split
    · rename_i hday
      rw [if_pos (of_decide_eq_true hday), map_cons, sum_cons]
    · rename_i hday
      rw [if_neg fun h => hday (decide_eq_true h), Nat.zero_add]

theorem consumedAndReserved_eq (m : UsageMeter) (day : String) :
    m.consumedAndReserved day = min (m.totalOn day) u64Max := by
  unfold consumedAndReserved totalOn summariesOn recordsOn
  have hsettled : ∀ l : List UsageSummary, l.foldl (fun total s => saturatingAdd total s.settledMicrousd) 0 =
      min (l.map UsageSummary.settledMicrousd).sum u64Max := by
    intro l
    rw [foldl_saturatingAdd settledMicrousd l (Nat.zero_le _), Nat.zero_add]
  have hsummaries : ((((m.summaries.get? day).map fun models =>
      models.entries.flatMap fun versions => versions.2.entries.map Prod.snd).getD []).map
        UsageSummary.settledMicrousd).sum = (m.summaries.get? day).elim 0 modelsTotal := by
    cases m.summaries.get? day with
    | none => rfl
    | some models =>
      rw [map_some, getD_some, sum_flatMap]
      simp only [List.map_map]
      rfl
  dsimp only
  rw [hsettled, hsummaries, foldl_saturatingAdd UsageRecord.amount _ (Nat.min_le_right _ _), sum_filter_records]
  unfold sumBy
  dsimp only
  omega

/-! ## Compaction -/

theorem summaryOf_eq (m : UsageMeter) (r : UsageRecord) : m.summaryOf r =
    (((((m.summaries.get? r.day).getD empty).get? (modelName r)).getD empty).get? r.priceVersion).getD {} := by
  unfold summaryOf
  cases m.summaries.get? r.day with
  | none => rfl
  | some models =>
    rw [bind_some, getD_some]
    cases models.get? (modelName r) with
    | none | some versions => rfl

theorem elim_getD_empty {K V : Type} [DecidableEq K] (o : Option (KeyMap K V)) (f : KeyMap K V → Nat)
    (h : f empty = 0) : o.elim 0 f = f (o.getD empty) := by
  cases o with
  | none => exact h.symm
  | some m => rfl

/-- A summary written in its place changes its day's summaries by its own difference. -/
theorem summariesOn_setSummary (m : UsageMeter) (r : UsageRecord) (summary : UsageSummary) (day : String) :
    summariesOn day (m.setSummary r summary) + (if r.day = day then (m.summaryOf r).settledMicrousd else 0) =
      summariesOn day m.summaries + if r.day = day then summary.settledMicrousd else 0 := by
  unfold summariesOn setSummary
  rw [get?_insert]
  by_cases hday : day = r.day
  · subst hday
    rw [if_pos rfl, if_pos rfl, if_pos rfl, elim_some, elim_getD_empty _ _ rfl, summaryOf_eq]
    generalize (m.summaries.get? r.day).getD empty = models
    have hversions := sumBy_insert (f := fun _ s => s.settledMicrousd)
      ((models.get? (modelName r)).getD empty) r.priceVersion summary
    have hmodels := sumBy_insert (f := fun _ versions => versionsTotal versions) models (modelName r)
      (((models.get? (modelName r)).getD empty).insert r.priceVersion summary)
    rw [elim_getD_empty _ _ rfl] at hmodels
    have hold : ∀ o : Option UsageSummary, o.elim 0 (fun s => s.settledMicrousd) = (o.getD {}).settledMicrousd := by
      intro o
      cases o with
      | none | some s => rfl
    rw [hold] at hversions
    unfold modelsTotal versionsTotal at *
    omega
  · rw [if_neg hday, if_neg (Ne.symm hday), if_neg (Ne.symm hday)]

theorem withRecord_settled {summary' : UsageSummary} {r : UsageRecord} (h : summary.withRecord r = some summary') :
    summary'.settledMicrousd = summary.settledMicrousd + r.settledMicrousd.getD 0 := by
  unfold withRecord at h
  simp only [bind_eq_bind, bind_eq_some_iff] at h
  obtain ⟨records, -, settled, hsettled, h⟩ := h
  have hadded : settled = summary.settledMicrousd + r.settledMicrousd.getD 0 := by
    unfold checkedAdd at hsettled
    split at hsettled
    · exact (some.inj hsettled).symm
    · cases hsettled
  rw [← hadded]
  split at h
  · obtain ⟨usage, -, h⟩ := bind_eq_some_iff.1 h
    split at h
    · cases h
      rfl
    · cases h
  · obtain ⟨usage, -, h⟩ := bind_eq_some_iff.1 h
    split at h
    · cases h
      rfl
    · cases h

/-- A compaction, whole or stopped half way: settled records have gone into the summaries. -/
structure Compacted (m m' : UsageMeter) : Prop where
  kept : ∀ id r, m'.records.get? id = some r → m.records.get? id = some r
  unsettled : ∀ id r, m.records.get? id = some r → r.settledMicrousd = none ∨ r.unknown = true →
    m'.records.get? id = some r
  total : ∀ day, m'.totalOn day = m.totalOn day
  records : m'.records.entries.length ≤ m.records.entries.length
  archived : m.archivedIds.length ≤ usageCapacity → m'.archivedIds.length ≤ usageCapacity

theorem Compacted.refl (m : UsageMeter) : Compacted m m :=
  ⟨fun _ _ h => h, fun _ _ h _ => h, fun _ => rfl, Nat.le_refl _, fun h => h⟩

theorem Compacted.trans {m' m'' : UsageMeter} (h : Compacted m m') (h' : Compacted m' m'') : Compacted m m'' where
  kept id r hr := h.kept id r (h'.kept id r hr)
  unsettled id r hr hopen := h'.unsettled id r (h.unsettled id r hr hopen) hopen
  total day := (h'.total day).trans (h.total day)
  records := Nat.le_trans h'.records h.records
  archived hm := h'.archived (h.archived hm)

theorem compacted_one {id : String} {record : UsageRecord} (hrecord : m.records.get? id = some record)
    (hsettled : record.settledMicrousd.isSome = true) (hknown : record.unknown = false)
    (hsummary : (m.summaryOf record).withRecord record = some summary) :
    Compacted m
      { records := m.records.remove id
        summaries := m.setSummary record summary
        archivedIds := (m.archivedIds ++ [id]).drop ((m.archivedIds ++ [id]).length - usageCapacity) } where
  kept id' r hr := by
    rw [get?_remove] at hr
    split at hr
    · cases hr
    · exact hr
  unsettled id' r hr hopen := by
    rw [get?_remove, if_neg, hr]
    rintro rfl
    rw [hrecord] at hr
    cases hr
    rcases hopen with hopen | hopen
    · rw [hopen] at hsettled
      cases hsettled
    · rw [hopen] at hknown
      cases hknown
  total day := by
    have hsummaries := summariesOn_setSummary m record summary day
    have hrecords := sumBy_remove (f := fun _ r => if r.day = day then r.amount else 0) hrecord
    rw [withRecord_settled hsummary] at hsummaries
    have hamount : record.amount = record.settledMicrousd.getD 0 := by
      unfold amount
      cases hr : record.settledMicrousd with
      | none =>
        rw [hr] at hsettled
        cases hsettled
      | some cost => rfl
    rw [hamount] at hrecords
    unfold totalOn recordsOn
    dsimp only
    split at hsummaries
    · rename_i hday
      rw [if_pos hday] at hrecords
      omega
    · rename_i hday
      rw [if_neg hday] at hrecords
      omega
  records := by
    have hlength := length_remove hrecord
    dsimp only
    omega
  archived _ := by
    rw [length_drop]
    omega

theorem compacted_loop : ∀ (ids : List String) (m : UsageMeter) (removed : Nat),
    (∀ id ∈ ids, ∀ r, m.records.get? id = some r → r.settledMicrousd.isSome = true ∧ r.unknown = false) →
    Compacted m (m.compactLoop removed ids).1
  | [], m, _, _ => Compacted.refl m
  | id :: rest, m, removed, h => by
    unfold compactLoop
    cases hrecord : m.records.get? id with
    | none => exact compacted_loop rest m removed fun id' hid => h id' (mem_cons_of_mem _ hid)
    | some record =>
      obtain ⟨hsettled, hknown⟩ := h id mem_cons_self record hrecord
      dsimp only
      cases hsummary : (m.summaryOf record).withRecord record with
      | none => exact Compacted.refl m
      | some summary =>
        have hone := compacted_one hrecord hsettled hknown hsummary
        refine hone.trans (compacted_loop rest _ (removed + 1) fun id' hid r hr => ?_)
        exact h id' (mem_cons_of_mem _ hid) r (hone.kept id' r hr)

theorem compacted (m : UsageMeter) (nowMs : Nat) (force : Bool) : Compacted m (m.compact nowMs force).1 := by
  refine compacted_loop _ m 0 fun id hid r hr => ?_
  unfold compactCandidates at hid
  rw [mem_insertionSort, List.mem_map] at hid
  obtain ⟨⟨id', r'⟩, hmem, rfl⟩ := hid
  obtain ⟨hentry, hcondition⟩ := mem_filter.1 hmem
  rw [get?_eq_some.2 hentry] at hr
  cases hr
  simp only [Bool.and_eq_true, Bool.not_eq_true'] at hcondition
  exact ⟨hcondition.1.2, hcondition.1.1⟩

/-! ## Admission -/

def reservation (day phase : String) (estimate nowMs : Nat) : UsageRecord :=
  { createdMs := nowMs, day := day, phase := phase, estimateMicrousd := estimate }

/-- `reserve_at` compacts, and then it fails or admits the reservation within the limit. -/
theorem reserveAt_cases (m : UsageMeter) (id day phase : String) (estimate limit nowMs : Nat) : ∃ m', Compacted m m' ∧
      ((∃ e, m.reserveAt id day phase estimate limit nowMs = (m', .error e)) ∨
        m.reserveAt id day phase estimate limit nowMs =
          ({ m' with records := m'.records.insert id (reservation day phase estimate nowMs) }, .ok ()) ∧
        m'.records.get? id = none ∧ m'.records.entries.length < usageCapacity ∧
        saturatingAdd (m'.consumedAndReserved day) estimate ≤ limit) := by
  have hadm : ∀ m', Compacted m m' → m.records.get? id = none →
      (∃ e, m'.admitReservation id day phase estimate limit nowMs = (m', .error e)) ∨
        m'.admitReservation id day phase estimate limit nowMs =
          ({ m' with records := m'.records.insert id (reservation day phase estimate nowMs) }, .ok ()) ∧
        m'.records.get? id = none ∧ m'.records.entries.length < usageCapacity ∧
        saturatingAdd (m'.consumedAndReserved day) estimate ≤ limit := by
    intro m' hcompacted hnew
    have hnew' : m'.records.get? id = none := by
      cases hr : m'.records.get? id with
      | none => rfl
      | some r =>
        rw [hcompacted.kept id r hr] at hnew
        cases hnew
    unfold admitReservation
    split
    · exact .inl ⟨_, rfl⟩
    · rename_i hroom
      split
      · exact .inl ⟨_, rfl⟩
      · rename_i hbudget
        exact .inr ⟨rfl, hnew', Nat.lt_of_not_le hroom, Nat.le_of_not_lt hbudget⟩
  unfold reserveAt
  split
  · exact ⟨m, Compacted.refl m, .inl ⟨_, rfl⟩⟩
  · rename_i hknown
    have hnew : m.records.get? id = none := by
      cases hr : m.records.get? id with
      | none => rfl
      | some r =>
        refine absurd ?_ hknown
        unfold KeyMap.contains
        rw [hr]
        rfl
    have hfirst := compacted m nowMs false
    generalize m.compact nowMs false = p at hfirst ⊢
    obtain ⟨m₁, result⟩ := p
    cases result with
    | error e => exact ⟨m₁, hfirst, .inl ⟨e, rfl⟩⟩
    | ok removed =>
      dsimp only
      split
      · have hsecond := hfirst.trans (compacted m₁ nowMs true)
        generalize m₁.compact nowMs true = p at hsecond ⊢
        obtain ⟨m₂, result⟩ := p
        cases result with
        | error e => exact ⟨m₂, hsecond, .inl ⟨e, rfl⟩⟩
        | ok removed => exact ⟨m₂, hsecond, hadm m₂ hsecond hnew⟩
      · exact ⟨m₁, hfirst, hadm m₁ hfirst hnew⟩

end UsageMeter

/-! ## Bookings -/

section Bookings

variable {a c : List Booking} {b : Booking}

theorem bookedOn_append (day : String) (a c : List Booking) :
    bookedOn day (a ++ c) = bookedOn day a + bookedOn day c := by
  unfold bookedOn
  rw [filter_append, map_append, sum_append]

theorem bookedOn_cons (day : String) (b : Booking) (c : List Booking) :
    bookedOn day (b :: c) = (if b.day = day then b.amount else 0) + bookedOn day c := by
  unfold bookedOn
  rw [filter_cons]
  split
  · rename_i hday
    rw [if_pos (of_decide_eq_true hday), map_cons, sum_cons]
  · rename_i hday
    rw [if_neg fun h => hday (decide_eq_true h), Nat.zero_add]

theorem names_apart (h : ((a ++ b :: c).flatMap Booking.names).Nodup) :
    ∀ d, d ∈ a ∨ d ∈ c → ∀ n ∈ d.names, n ∉ b.names := by
  rw [flatMap_append, flatMap_cons, nodup_append, nodup_append] at h
  obtain ⟨-, ⟨-, -, hc⟩, ha⟩ := h
  rintro d (hd | hd) n hn hb
  · exact ha n (mem_flatMap.2 ⟨d, hd, hn⟩) n (mem_append_left _ hb) rfl
  · exact hc n hb n (mem_flatMap.2 ⟨d, hd, hn⟩) rfl

theorem map_one {p : Booking → Prop} [DecidablePred p] {f : Booking → Booking} (hothers : ∀ d, d ∈ a ∨ d ∈ c → ¬p d)
    (hb : p b) : ((a ++ b :: c).map fun d => if p d then f d else d) = a ++ f b :: c := by
  have hkeep : ∀ l : List Booking, (∀ d ∈ l, ¬p d) → (l.map fun d => if p d then f d else d) = l := fun l hl =>
    (map_congr_left fun d hd => if_neg (hl d hd)).trans (map_id' l)
  rw [map_append, map_cons, hkeep a fun d hd => hothers d (.inl hd), hkeep c fun d hd => hothers d (.inr hd),
    if_pos hb]

end Bookings

/-- The record of a reservation that is still in the meter. -/
structure Books (b : Booking) (r : UsageRecord) : Prop where
  day : r.day = b.day
  estimate : r.estimateMicrousd = b.estimate
  charges : b.charges = r.settledMicrousd.toList
  unknown : r.unknown = b.unknown
  unsettled : r.unknown = true → r.settledMicrousd = none

theorem Books.amount {b : Booking} {r : UsageRecord} (h : Books b r) : r.amount = b.amount := by
  unfold UsageRecord.amount Booking.amount
  rw [h.charges, h.estimate]
  cases r.settledMicrousd with
  | none | some cost => rfl

/-- The account and the meter agree. -/
structure Balanced (w : UsageWorld) : Prop where
  names : (w.bookings.flatMap Booking.names).Nodup
  once : ∀ b ∈ w.bookings, b.charges.length ≤ 1
  unknown : ∀ b ∈ w.bookings, b.unknown = true → b.charges = []
  live : ∀ id r, w.meter.records.get? id = some r → ∃ b ∈ w.bookings, b.name = id ∧ Books b r
  open_ : ∀ b ∈ w.bookings, b.charges = [] → ∃ r, w.meter.records.get? b.name = some r
  total : ∀ day, bookedOn day w.bookings = w.meter.totalOn day
  records : w.meter.records.entries.length ≤ usageCapacity
  archived : w.meter.archivedIds.length ≤ usageCapacity

theorem balanced_initial : Balanced initial where
  names := nodup_nil
  once _ h := (not_mem_nil h).elim
  unknown _ h := (not_mem_nil h).elim
  live _ _ h := nomatch (show none = some _ from h)
  open_ _ h := (not_mem_nil h).elim
  total _ := rfl
  records := Nat.zero_le _
  archived := Nat.zero_le _

section Balanced

variable {w : UsageWorld}

theorem Balanced.compacted (h : Balanced w) (hm : UsageMeter.Compacted w.meter m) : Balanced { w with meter := m } where
  names := h.names
  once := h.once
  unknown := h.unknown
  live id r hr := h.live id r (hm.kept id r hr)
  open_ b hb hcharges := by
    obtain ⟨r, hr⟩ := h.open_ b hb hcharges
    obtain ⟨d, hd, hname, hbooks⟩ := h.live _ r hr
    -- the record is this booking's own
    have hown : d = b := by
      obtain ⟨a, c, hac⟩ := append_of_mem hb
      have hapart := names_apart (hac ▸ h.names)
      rw [hac, mem_append, mem_cons] at hd
      by_contra hne
      refine hapart d (by tauto) d.name mem_cons_self ?_
      rw [hname]
      exact mem_cons_self
    subst hown
    refine ⟨r, hm.unsettled _ r hr (.inl ?_)⟩
    have hnone := hbooks.charges
    rw [hcharges] at hnone
    cases hr' : r.settledMicrousd with
    | none => rfl
    | some cost =>
      rw [hr'] at hnone
      cases hnone
  total day := (h.total day).trans (hm.total day).symm
  records := Nat.le_trans hm.records h.records
  archived := hm.archived h.archived

variable {id : String}

open UsageMeter

theorem Balanced.admitted (h : Balanced w) {day phase : String} {estimate nowMs : Nat}
    (hnew : w.meter.records.get? id = none) (hroom : w.meter.records.entries.length < usageCapacity)
    (hfresh : ∀ b ∈ w.bookings, id ∉ b.names) :
    Balanced
      { meter := { w.meter with records := w.meter.records.insert id (reservation day phase estimate nowMs) }
        bookings := w.bookings ++ [{ name := id, day := day, estimate := estimate }] } where
  names := by
    rw [flatMap_append, nodup_append]
    refine ⟨h.names, nodup_singleton id, fun n hn n' hn' => ?_⟩
    obtain ⟨b, hb, hnb⟩ := mem_flatMap.1 hn
    rintro rfl
    rw [show n = id from mem_singleton.1 hn'] at hnb
    exact hfresh b hb hnb
  once b hb := by
    rcases mem_append.1 hb with hb | hb
    · exact h.once b hb
    · rw [mem_singleton.1 hb]
      exact Nat.zero_le _
  unknown b hb hunknown := by
    rcases mem_append.1 hb with hb | hb
    · exact h.unknown b hb hunknown
    · rw [mem_singleton.1 hb]
  live id' r hr := by
    rw [get?_insert] at hr
    split at hr
    · rename_i hid
      cases hr
      exact ⟨_, mem_append_right _ (mem_singleton_self _), hid.symm, rfl, rfl, rfl, rfl, fun h => Bool.noConfusion h⟩
    · obtain ⟨b, hb, hbooks⟩ := h.live id' r hr
      exact ⟨b, mem_append_left _ hb, hbooks⟩
  open_ b hb hcharges := by
    rcases mem_append.1 hb with hb | hb
    · obtain ⟨r, hr⟩ := h.open_ b hb hcharges
      rw [get?_insert, if_neg, hr]
      · exact ⟨r, rfl⟩
      · rintro rfl
        rw [hnew] at hr
        cases hr
    · rw [mem_singleton.1 hb, get?_insert, if_pos rfl]
      exact ⟨_, rfl⟩
  total day' := by
    rw [bookedOn_append, h.total]
    unfold totalOn recordsOn
    rw [sumBy_insert_new hnew, bookedOn_cons]
    exact (Nat.add_assoc _ _ _)
  records := by
    rw [length_insert_new hnew]
    exact hroom
  archived := h.archived

variable {r : UsageRecord}

section

variable (h : Balanced w)
include h

/-- One booking and its record change alike; the record may go to another name. -/
theorem Balanced.rebook {a c : List Booking} {b b' : Booking} (hac : w.bookings = a ++ b :: c)
    (hr : w.meter.records.get? b.name = some r) (hbooks : Books b r) (hbooks' : Books b' r') (hday : b'.day = b.day)
    (hnames : ((a ++ b' :: c).flatMap Booking.names).Nodup) {records : KeyMap String UsageRecord}
    (hget : ∀ id, records.get? id = if id = b'.name then some r' else if id = b.name then none else w.meter.records.get? id)
    (hsum : ∀ day, recordsOn day records + (if r.day = day then r.amount else 0) = recordsOn day w.meter.records + if r'.day = day then r'.amount else 0) (hlength : records.entries.length ≤ usageCapacity) :
    Balanced { meter := { w.meter with records := records }, bookings := a ++ b' :: c } where
  names := hnames
  once d hd := by
    rw [mem_append, mem_cons] at hd
    rcases hd with hd | rfl | hd
    · exact h.once d (by rw [hac]; simp [hd])
    · rw [hbooks'.charges]
      cases r'.settledMicrousd with
      | none => exact Nat.zero_le _
      | some cost => exact Nat.le_refl _
    · exact h.once d (by rw [hac]; simp [hd])
  unknown d hd hunknown := by
    rw [mem_append, mem_cons] at hd
    rcases hd with hd | rfl | hd
    · exact h.unknown d (by rw [hac]; simp [hd]) hunknown
    · rw [hbooks'.charges, hbooks'.unsettled (hbooks'.unknown.trans hunknown)]
      rfl
    · exact h.unknown d (by rw [hac]; simp [hd]) hunknown
  live id s hs := by
    rw [hget id] at hs
    split at hs
    · rename_i hid
      cases hs
      exact ⟨b', by simp, hid.symm, hbooks'⟩
    · split at hs
      · cases hs
      · rename_i hother
        obtain ⟨d, hd, hname, hdbooks⟩ := h.live id s hs
        rw [hac, mem_append, mem_cons] at hd
        rcases hd with hd | rfl | hd
        · exact ⟨d, by simp [hd], hname, hdbooks⟩
        · exact absurd hname.symm hother
        · exact ⟨d, by simp [hd], hname, hdbooks⟩
  open_ d hd hcharges := by
    rw [hget d.name]
    rw [mem_append, mem_cons] at hd
    by_cases hown : d.name = b'.name
    · exact ⟨r', if_pos hown⟩
    · have hd' : d ∈ a ∨ d ∈ c := by
        rcases hd with hd | rfl | hd
        · exact .inl hd
        · exact absurd rfl hown
        · exact .inr hd
      have hother : d.name ≠ b.name := fun heq =>
        names_apart (hac ▸ h.names) d hd' d.name mem_cons_self (heq ▸ mem_cons_self)
      rw [if_neg hown, if_neg hother]
      refine h.open_ d ?_ hcharges
      rw [hac, mem_append, mem_cons]
      tauto
  total day := by
    have htotal := h.total day
    rw [hac, bookedOn_append, bookedOn_cons] at htotal
    have hsum' := hsum day
    rw [hbooks.day, hbooks.amount, hbooks'.day, hbooks'.amount, hday] at hsum'
    rw [bookedOn_append, bookedOn_cons, hday]
    unfold totalOn at htotal ⊢
    dsimp only
    omega
  records := hlength
  archived := h.archived

theorem Balanced.split (hr : w.meter.records.get? id = some r) :
    ∃ a b c, w.bookings = a ++ b :: c ∧ b.name = id ∧ Books b r ∧ ∀ d, d ∈ a ∨ d ∈ c → ∀ n ∈ d.names, n ∉ b.names := by
  obtain ⟨b, hb, hname, hbooks⟩ := h.live id r hr
  obtain ⟨a, c, hac⟩ := append_of_mem hb
  exact ⟨a, b, c, hac, hname, hbooks, names_apart (hac ▸ h.names)⟩

theorem Balanced.rewritten {a c : List Booking} {b b' : Booking} (hac : w.bookings = a ++ b :: c)
    (hr : w.meter.records.get? id = some r) (hname : b.name = id) (hbooks : Books b r) (hnames : b'.names = b.names)
    (hday : b'.day = b.day) (hbooks' : Books b' r') :
    Balanced { meter := { w.meter with records := w.meter.records.insert id r' }, bookings := a ++ b' :: c } := by
  subst hname
  have hname' : b'.name = b.name := (List.cons.inj hnames).1
  refine h.rebook hac hr hbooks hbooks' hday ?_ (fun id => ?_) (fun day => ?_) ?_
  · have hold := h.names
    rw [hac, flatMap_append, flatMap_cons] at hold
    rw [flatMap_append, flatMap_cons, hnames]
    exact hold
  · rw [get?_insert, hname']
    split
    · rfl
    · rfl
  · exact sumBy_insert_old hr r'
  · rw [length_insert_old hr]
    exact h.records

section

variable (hr : w.meter.records.get? id = some r)
include hr

theorem Balanced.charged (hopen : r.settledMicrousd = none) {cost : Nat}
    (hday : r'.day = r.day) (hestimate : r'.estimateMicrousd = r.estimateMicrousd) (hcost : r'.settledMicrousd = some cost)
    (hknown : r'.unknown = false) :
    Balanced { meter := { w.meter with records := w.meter.records.insert id r' }, bookings := charge id cost w.bookings } := by
  obtain ⟨a, b, c, hac, hname, hbooks, hapart⟩ := h.split hr
  have hown : id ∈ b.names := hname ▸ mem_cons_self
  have hcharge : charge id cost w.bookings = a ++ { b with charges := cost :: b.charges, unknown := false } :: c := by
    rw [hac]
    exact map_one (fun d hd hid => hapart d hd id hid hown) hown
  rw [hcharge]
  refine h.rewritten hac hr hname hbooks rfl rfl ⟨hday.trans hbooks.day, hestimate.trans hbooks.estimate, ?_, hknown, ?_⟩
  · rw [hbooks.charges, hopen, hcost]
    rfl
  · rw [hknown]
    exact fun h => Bool.noConfusion h

theorem Balanced.marked (hopen : r.settledMicrousd = none) : Balanced
      { meter := { w.meter with records := w.meter.records.insert id { r with unknown := true } }
        bookings := w.bookings.map fun b => if id ∈ b.names ∧ b.charges = [] then { b with unknown := true } else b } := by
  obtain ⟨a, b, c, hac, hname, hbooks, hapart⟩ := h.split hr
  have hown : id ∈ b.names := hname ▸ mem_cons_self
  have hcharges : b.charges = [] := by
    rw [hbooks.charges, hopen]
    rfl
  rw [hac, map_one (fun d hd hid => hapart d hd id hid.1 hown) ⟨hown, hcharges⟩]
  exact h.rewritten hac hr hname hbooks rfl rfl ⟨hbooks.day, hbooks.estimate, hbooks.charges, rfl, fun _ => hopen⟩

theorem Balanced.marked_settled (hsettled : r.settledMicrousd ≠ none) :
    (w.bookings.map fun b => if id ∈ b.names ∧ b.charges = [] then { b with unknown := true } else b) = w.bookings := by
  obtain ⟨a, b, c, hac, hname, hbooks, hapart⟩ := h.split hr
  have hown : id ∈ b.names := hname ▸ mem_cons_self
  refine (map_congr_left fun d hd => if_neg fun hid => ?_).trans (map_id' _)
  rw [hac, mem_append, mem_cons] at hd
  rcases hd with hd | rfl | hd
  · exact hapart d (.inl hd) id hid.1 hown
  · have hnone := hbooks.charges
    rw [hid.2] at hnone
    cases hr' : r.settledMicrousd with
    | none => exact hsettled hr'
    | some cost =>
      rw [hr'] at hnone
      cases hnone
  · exact hapart d (.inr hd) id hid.1 hown

end

theorem Balanced.renamed {requestId responseId : String} (hr : w.meter.records.get? requestId = some r) (hne : requestId ≠ responseId)
    (hnew : w.meter.records.get? responseId = none) (hfresh : ∀ b ∈ w.bookings, responseId ∉ b.names) :
    Balanced
      { meter := { w.meter with records := (w.meter.records.remove requestId).insert responseId r }
        bookings := w.bookings.map fun b =>
          if b.name = requestId ∧ requestId ≠ responseId then { b with name := responseId, former := b.names } else b } := by
  obtain ⟨a, b, c, hac, rfl, hbooks, hapart⟩ := h.split hr
  have hothers : ∀ d, d ∈ a ∨ d ∈ c → ¬(d.name = b.name ∧ b.name ≠ responseId) := fun d hd heq =>
    hapart d hd d.name mem_cons_self (heq.1 ▸ mem_cons_self)
  have hnew' : (w.meter.records.remove b.name).get? responseId = none := by
    rw [get?_remove, if_neg hne.symm]
    exact hnew
  rw [hac, map_one hothers ⟨rfl, hne⟩]
  have hbooks' : Books { b with name := responseId, former := b.names } r :=
    ⟨hbooks.day, hbooks.estimate, hbooks.charges, hbooks.unknown, hbooks.unsettled⟩
  refine h.rebook hac hr hbooks hbooks' rfl ?_ (fun id => ?_) (fun day => ?_) ?_
  · have hold := h.names
    have hfresh' : responseId ∉ w.bookings.flatMap Booking.names := fun hmem => by
      obtain ⟨d, hd, hd'⟩ := mem_flatMap.1 hmem
      exact hfresh d hd hd'
    rw [hac, flatMap_append, flatMap_cons] at hold hfresh'
    rw [flatMap_append, flatMap_cons]
    exact perm_middle.nodup_iff.2 (nodup_cons.2 ⟨hfresh', hold⟩)
  · rw [get?_insert, get?_remove]
  · have hremove := sumBy_remove (f := fun _ r => if r.day = day then r.amount else 0) hr
    unfold recordsOn
    rw [sumBy_insert_new hnew', ← hremove]
  · have hremove := length_remove hr
    have hrecords := h.records
    rw [length_insert_new hnew']
    omega

theorem Balanced.priced (id model priceVersion : String) (rates : Rates) (rate : Nat) :
    Balanced { w with meter := w.meter.price id model priceVersion rates rate } where
  names := h.names
  once := h.once
  unknown := h.unknown
  live id' r hr := by
    unfold price at hr
    rw [get?_modify] at hr
    split at hr
    · obtain ⟨r₀, hr₀, rfl⟩ := map_eq_some_iff.1 hr
      obtain ⟨b, hb, hname, hbooks⟩ := h.live id' r₀ hr₀
      exact ⟨b, hb, hname, hbooks.day, hbooks.estimate, hbooks.charges, hbooks.unknown, hbooks.unsettled⟩
    · exact h.live id' r hr
  open_ b hb hcharges := by
    obtain ⟨r, hr⟩ := h.open_ b hb hcharges
    unfold price
    rw [get?_modify, hr]
    split
    · exact ⟨_, rfl⟩
    · exact ⟨_, rfl⟩
  total day := by
    rw [h.total day]
    refine congrArg _ (sumBy_modify_same _ fun _ => ?_).symm
    rfl
  records := by
    unfold UsageMeter.price KeyMap.modify
    rw [length_map]
    exact h.records
  archived := h.archived

end

end Balanced

/-! ## Steps -/

/-- What a call does, beside keeping the account balanced. -/
structure UsageStep (w : UsageWorld) (call : UsageCall) (w' : UsageWorld) (answer : UsageAnswer) : Prop where
  balanced : Balanced w'
  /-- A call that fails changes no day's total and no unsettled reservation. -/
  failed : answer.failed = true → w'.bookings = w.bookings ∧ (∀ day, w'.meter.totalOn day = w.meter.totalOn day) ∧
    ∀ id r, r.settledMicrousd = none →
      (w'.meter.records.get? id = some r ↔ w.meter.records.get? id = some r)
  within : ∀ id day phase estimate limit nowMs, call = .reserveAt id day phase estimate limit nowMs →
    answer = .admitted (.ok ()) → w'.meter.consumedAndReserved day ≤ limit

open UsageStep

theorem UsageMeter.Compacted.failed {m m' : UsageMeter} (h : UsageMeter.Compacted m m') :
    (∀ day, m'.totalOn day = m.totalOn day) ∧
      ∀ id r, r.settledMicrousd = none → (m'.records.get? id = some r ↔ m.records.get? id = some r) :=
  ⟨h.total, fun id r hopen => ⟨h.kept id r, fun hr => h.unsettled id r hr (.inl hopen)⟩⟩

variable {call : UsageCall}

theorem UsageStep.settled {w w' : UsageWorld} (h : Balanced w')
    (hdone : answer.failed = false) (hanswer : answer ≠ .admitted (.ok ())) : UsageStep w call w' answer :=
  ⟨h, fun hfailed => Bool.noConfusion (hdone.symm.trans hfailed), fun _ _ _ _ _ _ _ hok => absurd hok hanswer⟩

theorem UsageStep.unchanged {w : UsageWorld} (h : Balanced w)
    (hanswer : answer ≠ .admitted (.ok ())) : UsageStep w call w answer :=
  ⟨h, fun _ => ⟨rfl, fun _ => rfl, fun _ _ _ => Iff.rfl⟩, fun _ _ _ _ _ _ _ hok => absurd hok hanswer⟩

theorem UsageMeter.settle_cases (m : UsageMeter) (id : String) (usage : TokenUsage) (rates : Rates) (wallMs : Nat) :
    m.settle id usage rates wallMs = (m, false) ∨ ∃ r r', m.records.get? id = some r ∧ r.settledMicrousd = none ∧
      m.settle id usage rates wallMs = ({ m with records := m.records.insert id r' }, true) ∧
      r'.day = r.day ∧ r'.estimateMicrousd = r.estimateMicrousd ∧ r'.settledMicrousd = some (usage.costMicrousd rates) ∧
      r'.unknown = false := by
  unfold settle
  cases hr : m.records.get? id with
  | none => exact .inl rfl
  | some r =>
    dsimp only
    cases hsettled : r.settledMicrousd with
    | some cost => exact .inl rfl
    | none =>
      rw [isSome_none, if_neg Bool.false_ne_true]
      exact .inr ⟨r, _, rfl, hsettled, rfl, rfl, rfl, rfl, rfl⟩

theorem UsageMeter.settleDuration_cases (m : UsageMeter) (id : String) (seconds : Float) (wallMs : Nat) :
    (∃ result, result ≠ .ok true ∧ m.settleDuration id seconds wallMs = (m, result)) ∨
      ∃ r r' cost, m.records.get? id = some r ∧ r.settledMicrousd = none ∧
        durationCost seconds r.durationMicrousdPerSecond = some cost ∧
        m.settleDuration id seconds wallMs = ({ m with records := m.records.insert id r' }, .ok true) ∧
        r'.day = r.day ∧ r'.estimateMicrousd = r.estimateMicrousd ∧ r'.settledMicrousd = some cost ∧ r'.unknown = false := by
  have herror : ∀ e : String, (.error e : Except String Bool) ≠ .ok true := by rintro e ⟨⟩
  have hagain : (.ok false : Except String Bool) ≠ .ok true := by rintro ⟨⟩
  unfold settleDuration
  split
  · exact .inl ⟨.error _, herror _, rfl⟩
  · cases hr : m.records.get? id with
    | none => exact .inl ⟨.ok false, hagain, rfl⟩
    | some r =>
      dsimp only
      cases hsettled : r.settledMicrousd with
      | some cost => exact .inl ⟨.ok false, hagain, rfl⟩
      | none =>
        rw [isSome_none, if_neg Bool.false_ne_true]
        cases hcost : durationCost seconds r.durationMicrousdPerSecond with
        | none => exact .inl ⟨.error _, herror _, rfl⟩
        | some cost => exact .inr ⟨r, _, cost, rfl, hsettled, hcost, rfl, rfl, rfl, rfl, rfl⟩

theorem Balanced.step {w : UsageWorld} (h : Balanced w) (hfresh : FreshName w call) :
    UsageStep w call (w.step call).1 (w.step call).2 := by
  cases call with
  | reserveAt id day phase estimate limit nowMs =>
    dsimp only [UsageWorld.step]
    obtain ⟨m, hcompacted, ⟨e, heq⟩ | ⟨heq, hnew, hroom, hbudget⟩⟩ :=
      UsageMeter.reserveAt_cases w.meter id day phase estimate limit nowMs
    · rw [heq]
      exact ⟨h.compacted hcompacted, fun _ => ⟨rfl, hcompacted.failed⟩, by rintro _ _ _ _ _ _ _ ⟨⟩⟩
    · rw [heq]
      refine ⟨(h.compacted hcompacted).admitted hnew hroom hfresh, by rintro ⟨⟩, ?_⟩
      rintro _ _ _ _ _ _ ⟨⟩ -
      -- the new total is the one that was compared with the limit
      rw [UsageMeter.consumedAndReserved_eq] at hbudget ⊢
      unfold UsageMeter.totalOn UsageMeter.recordsOn at hbudget ⊢
      dsimp only
      have hamount : (if (UsageMeter.reservation day phase estimate nowMs).day = day then
          (UsageMeter.reservation day phase estimate nowMs).amount else 0) = estimate := if_pos rfl
      rw [sumBy_insert_new hnew, hamount]
      unfold saturatingAdd at hbudget
      omega
  | settle id usage rates wallMs =>
    dsimp only [UsageWorld.step]
    rcases UsageMeter.settle_cases w.meter id usage rates wallMs with
      heq | ⟨r, r', hr, hopen, heq, hday, hestimate, hcost, hknown⟩
    · rw [heq]
      exact unchanged h (by rintro ⟨⟩)
    · rw [heq]
      exact .settled (h.charged hr hopen hday hestimate hcost hknown) rfl (by rintro ⟨⟩)
  | settleDuration id seconds wallMs =>
    dsimp only [UsageWorld.step]
    rcases UsageMeter.settleDuration_cases w.meter id seconds wallMs with
      ⟨result, hresult, heq⟩ | ⟨r, r', cost, hr, hopen, hduration, heq, hday, hestimate, hcost, hknown⟩
    · rw [heq]
      dsimp only
      split
      · exact absurd rfl hresult
      · exact unchanged h (by rintro ⟨⟩)
    · rw [heq, hr, bind_some, hduration]
      exact .settled (h.charged hr hopen hday hestimate hcost hknown) rfl (by rintro ⟨⟩)
  | markUnknown id =>
    dsimp only [UsageWorld.step]
    unfold UsageMeter.markUnknown
    cases hr : w.meter.records.get? id with
    | none => exact unchanged h (by rintro ⟨⟩)
    | some r =>
      dsimp only
      by_cases hsettled : r.settledMicrousd = none
      · rw [if_pos (isNone_iff_eq_none.2 hsettled)]
        exact .settled (h.marked hr hsettled) rfl (by rintro ⟨⟩)
      · rw [if_neg (mt isNone_iff_eq_none.1 hsettled)]
        rw [h.marked_settled hr hsettled]
        exact unchanged h (by rintro ⟨⟩)
  | associateResponse requestId responseId =>
    dsimp only [UsageWorld.step]
    unfold UsageMeter.associateResponse
    split
    · rename_i hsame
      have hkeep : (w.bookings.map fun b => if b.name = requestId ∧ requestId ≠ responseId then
          { b with name := responseId, former := b.names } else b) = w.bookings :=
        (map_congr_left fun d _ => if_neg fun hid => hid.2 hsame).trans (map_id' _)
      rw [hkeep]
      exact unchanged h (by rintro ⟨⟩)
    · rename_i hne
      split
      · exact unchanged h (by rintro ⟨⟩)
      · rename_i hknown
        have hnew : w.meter.records.get? responseId = none := by
          cases hr : w.meter.records.get? responseId with
          | none => rfl
          | some r =>
            refine absurd ?_ hknown
            unfold KeyMap.contains
            rw [hr]
            rfl
        cases hr : w.meter.records.get? requestId with
        | none => exact unchanged h (by rintro ⟨⟩)
        | some r => exact .settled (h.renamed hr hne hnew (hfresh.resolve_left hne)) rfl (by rintro ⟨⟩)
  | compact nowMs force =>
    have hcompacted := UsageMeter.compacted w.meter nowMs force
    exact ⟨h.compacted hcompacted, fun _ => ⟨rfl, hcompacted.failed⟩, by rintro _ _ _ _ _ _ ⟨⟩⟩
  | price id model priceVersion rates rate =>
    exact .settled (h.priced id model priceVersion rates rate) rfl (by rintro ⟨⟩)

/-! ## Runs -/

/-- The claims on the meter in a state. -/
structure Accounted (w : UsageWorld) : Prop where
  /-- A day counts what was settled of its reservations, and the estimates of the others. -/
  total : ∀ day, w.meter.consumedAndReserved day = min (bookedOn day w.bookings) u64Max
  once : ∀ b ∈ w.bookings, b.charges.length ≤ 1
  /-- A reservation not settled, its usage unknown or not, has its record. -/
  kept : ∀ b ∈ w.bookings, b.charges = [] → ∃ r, w.meter.records.get? b.name = some r ∧ Books b r
  unknown : ∀ b ∈ w.bookings, b.unknown = true → b.charges = []
  records : w.meter.records.entries.length ≤ usageCapacity
  archived : w.meter.archivedIds.length ≤ usageCapacity

theorem Balanced.accounted {w : UsageWorld} (h : Balanced w) : Accounted w where
  total day := by rw [UsageMeter.consumedAndReserved_eq, h.total]
  once := h.once
  kept b hb hcharges := by
    obtain ⟨r, hr⟩ := h.open_ b hb hcharges
    obtain ⟨a, d, c, hac, hname, hbooks, hapart⟩ := h.split hr
    refine ⟨r, hr, ?_⟩
    rw [hac, mem_append, mem_cons] at hb
    rcases hb with hb | rfl | hb
    · exact absurd (hname ▸ mem_cons_self) (hapart b (.inl hb) b.name mem_cons_self)
    · exact hbooks
    · exact absurd (hname ▸ mem_cons_self) (hapart b (.inr hb) b.name mem_cons_self)
  unknown := h.unknown
  records := h.records
  archived := h.archived

/-- Along every run that gives no accepted name to another reservation, each state is accounted for; a call that
fails changes no total and no unsettled reservation, and one that reserves stays within the limit. -/
theorem usage_conserved {calls : List UsageCall} (h : Along FreshName UsageWorld.step UsageWorld.initial calls) :
    Accounted (after UsageWorld.step UsageWorld.initial calls) ∧
      ∀ before call rest, calls = before ++ call :: rest →
        ∀ w, w = after UsageWorld.step UsageWorld.initial before →
          ((w.step call).2.failed = true →
            (∀ day, (w.step call).1.meter.consumedAndReserved day = w.meter.consumedAndReserved day) ∧
            ∀ id r, r.settledMicrousd = none →
              ((w.step call).1.meter.records.get? id = some r ↔ w.meter.records.get? id = some r)) ∧
          ∀ id day phase estimate limit nowMs, call = .reserveAt id day phase estimate limit nowMs →
            (w.step call).2 = .admitted (.ok ()) → (w.step call).1.meter.consumedAndReserved day ≤ limit := by
  have hbalanced : ∀ {calls : List UsageCall}, Along FreshName UsageWorld.step initial calls →
      Balanced (after UsageWorld.step initial calls) := fun h =>
    trace_invariant_along (I := fun _ => Balanced) (fun _ _ _ hfresh hkept => (hkept.step hfresh).balanced)
      balanced_initial h
  refine ⟨(hbalanced h).accounted, ?_⟩
  rintro before call rest rfl w rfl
  obtain ⟨hbefore, hfresh, -⟩ := along_append.1 h
  have hstep := (hbalanced hbefore).step hfresh
  refine ⟨fun hfailed => ?_, hstep.within⟩
  obtain ⟨-, htotal, hunsettled⟩ := hstep.failed hfailed
  refine ⟨fun day => ?_, hunsettled⟩
  rw [UsageMeter.consumedAndReserved_eq, UsageMeter.consumedAndReserved_eq, htotal]

instance (w : UsageWorld) : ∀ call, Decidable (FreshName w call)
  | .reserveAt .. => inferInstanceAs (Decidable (∀ b ∈ w.bookings, _))
  | .associateResponse .. => inferInstanceAs (Decidable (_ ∨ ∀ b ∈ w.bookings, _))
  | .settle .. | .settleDuration .. | .markUnknown _ | .compact .. | .price .. => isTrue trivial

/-- A response settled under its new name, with receipts that repeat and come after it was compacted. -/
def Sample.usageCalls : List UsageCall :=
  let receipt (id : String) : UsageCall := .settle id { outputText := 100 } { outputText := 2000000 } 5
  [.reserveAt "r1" "2026-10-29" "plan" 600 1000 0, .associateResponse "r1" "resp", .markUnknown "resp", receipt "resp",
    receipt "r1", receipt "resp", .compact 1000000 true, receipt "resp",
    .reserveAt "r2" "2026-10-29" "feedback" 500 1000 1]

theorem usage_conserved_receipts : Along FreshName UsageWorld.step UsageWorld.initial Sample.usageCalls ∧
    (after UsageWorld.step UsageWorld.initial Sample.usageCalls).meter.consumedAndReserved "2026-10-29" = 700 ∧
    Accounted (after UsageWorld.step UsageWorld.initial Sample.usageCalls) := by
  have h : Along FreshName UsageWorld.step initial Sample.usageCalls := by decide +kernel
  exact ⟨h, by decide +kernel, (usage_conserved h).1⟩

end Jwm.Eva
