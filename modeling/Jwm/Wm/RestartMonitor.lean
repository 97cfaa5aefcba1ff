/-
The part of a restart snapshot that describes one monitor (`jwm/restart_state.rs`): what
`prepare_restart_state` records of its tags, what `RestartSnapshot::validate` asks of the record, and
which histories of the monitor lead to a record that is refused.
-/
import Jwm.Core.LayoutParams
import Jwm.Data.Run

namespace Jwm

open List Option

/-! ## The record -/

/-- `Tag`. The layouts are kept as such where the source writes their names. -/
structure RestartTag where
  layout : LayoutEnum
  alt : LayoutEnum
  nMaster : Nat
  mFact : Float32
  gap : Int
  showBar : Bool

/-- The tag fields of a snapshot's `Monitor`. -/
structure RestartView where
  tagSet : List (BitVec 32)
  selTags : Nat
  curTag : Nat
  prevTag : Nat
  tags : List RestartTag

/-- The tags of a `Pertag`, one for each slot. -/
def Pertag.restartTags (p : Pertag) : List RestartTag :=
  (List.range p.lts.length).map fun index =>
    { layout := p.lts[index]?.getD .any
      alt := p.prevLts[index]?.getD .any
      nMaster := p.nMasters[index]?.getD 0
      mFact := p.mFacts[index]?.getD 0
      gap := p.gaps[index]?.getD 0
      showBar := p.showBars[index]?.getD false }

/-- `prepare_restart_state`, the tags of one monitor. -/
def WMMonitor.restartView (m : WMMonitor) : Except String RestartView :=
  match m.pertag with
  | none => .error "monitor has no per-tag state"
  | some p =>
    let count := p.lts.length
    if [p.prevLts.length, p.nMasters.length, p.mFacts.length, p.gaps.length, p.showBars.length, p.sel.length].any
        (· != count) then
      .error "inconsistent per-tag restart state"
    else
      .ok
        { tagSet := [m.tagSet 0, m.tagSet 1]
          selTags := m.selTags
          curTag := p.curTag
          prevTag := p.prevTag
          tags := p.restartTags }

def RestartTag.validate (t : RestartTag) : Bool :=
  t.layout.inCycle && t.alt.inCycle && decide (t.nMaster ≤ maxNMaster) && t.mFact.isFinite && mFactInRange t.mFact &&
    decide (0 ≤ t.gap ∧ t.gap ≤ 100)

/-- `RestartSnapshot::validate`, the tags of one monitor. -/
def RestartView.validate (r : RestartView) : Bool :=
  decide (r.selTags < 2) && r.tagSet.all (· != 0) && decide (2 ≤ r.tags.length ∧ r.tags.length ≤ 33) &&
    decide (r.curTag < r.tags.length) && decide (r.prevTag < r.tags.length) && r.tags.all RestartTag.validate

/-- The monitor is recorded, and the record is accepted. -/
def WMMonitor.handsOver (m : WMMonitor) : Bool :=
  match m.restartView with
  | .ok r => r.validate
  | .error _ => false

/-! ## When it is accepted -/

/-- A monitor of `n` tags with its layout parameters within the limits. -/
structure WMMonitor.Arranged (m : WMMonitor) (p : Pertag) (n : Nat) : Prop where
  pertag : m.pertag = some p
  even : p.Even (n + 1)
  one_le : 1 ≤ n
  le : n ≤ 31
  tuned : m.Tuned p

open WMMonitor

section Accept

variable {m : WMMonitor} {p : Pertag} {n : Nat}

theorem restartTags_valid (h : p.Tuned) (he : p.Even (n + 1)) : ∀ t ∈ p.restartTags, t.validate = true := by
  intro t ht
  obtain ⟨i, hi, rfl⟩ := List.mem_map.1 ht
  rw [mem_range, he.lts] at hi
  have get : ∀ {α : Type} {P : α → Prop} (l : List α) (d : α), l.length = n + 1 → (∀ x ∈ l, P x) → P (l[i]?.getD d) := by
    intro α P l d hl hP
    rw [getElem?_eq_getElem (hl ▸ hi), getD_some]
    exact hP _ (getElem_mem _)
  have hf := get p.mFacts (0 : Float32) he.mFacts h.mFacts
  have hg : 0 ≤ p.gaps[i]?.getD 0 ∧ p.gaps[i]?.getD 0 ≤ maxLayoutGapPx := get p.gaps 0 he.gaps h.gaps
  unfold RestartTag.validate
  simp only [Bool.and_eq_true, decide_eq_true_eq]
  exact ⟨⟨⟨⟨⟨get p.lts .any he.lts h.lts, get p.prevLts .any he.prevLts h.prevLts⟩,
    get p.nMasters 0 he.nMasters h.nMasters⟩, isFinite_of_mFactInRange hf⟩, hf⟩, hg⟩

/-- The record of a monitor within the limits is refused for its tag sets and slot numbers alone. -/
theorem handsOver_iff (h : m.Arranged p n) :
    m.handsOver = true ↔ (∀ i, m.tagSet i ≠ 0) ∧ p.curTag ≤ n ∧ p.prevTag ≤ n := by
  have hlen : p.restartTags.length = n + 1 := by
    unfold Pertag.restartTags
    rw [length_map, length_range, h.even.lts]
  have hview : m.restartView = .ok
      { tagSet := [m.tagSet 0, m.tagSet 1], selTags := m.selTags, curTag := p.curTag, prevTag := p.prevTag
        tags := p.restartTags } := by
    unfold restartView
    simp only [h.pertag, h.even.lts, h.even.prevLts, h.even.nMasters, h.even.mFacts, h.even.gaps, h.even.showBars,
      h.even.sel]
    simp
  have htags : p.restartTags.all RestartTag.validate = true :=
    all_eq_true.2 (restartTags_valid h.tuned.slots h.even)
  have h1 := h.one_le
  have h31 := h.le
  have hsel := m.selTags.isLt
  unfold handsOver RestartView.validate
  simp only [hview, htags, hlen, Bool.and_eq_true, decide_eq_true_eq, all_cons, all_nil, bne_iff_ne,
    Fin.forall_fin_two, and_true]
  constructor
  · rintro ⟨⟨⟨⟨-, hset⟩, -⟩, hcur⟩, hprev⟩
    exact ⟨hset, by omega, by omega⟩
  · rintro ⟨hset, hcur, hprev⟩
    exact ⟨⟨⟨⟨hsel, hset⟩, by omega⟩, by omega⟩, by omega⟩

end Accept

/-! ## Histories of a monitor -/

/-- A command that changes the view, the number of tags or the layout of a monitor. -/
inductive LayoutOp where
  | viewTag (mask : BitVec 32) (toggle : Bool)
  | syncTagSlots (tagsLength : Nat)
  | setmfact (f : Float32)
  | incnmaster (i : Int)
  | setnmaster (i : Int)
  | setgaps (delta : Int)
  | setNewLayout (layout : LayoutEnum) (curTag : Nat)

def WMMonitor.perform (m : WMMonitor) : LayoutOp → WMMonitor
  | .viewTag mask toggle => (m.viewTag mask toggle).1
  | .syncTagSlots n => m.syncTagSlots n (lowMask n)
  | .setmfact f => m.setmfact f
  | .incnmaster i => m.incnmaster i
  | .setnmaster i => m.setnmaster i
  | .setgaps delta => m.setgaps delta
  | .setNewLayout layout curTag => m.setNewLayout layout curTag

def WMMonitor.performs (m : WMMonitor) (op : LayoutOp) : WMMonitor × Unit := (m.perform op, ())

/-- There are between 1 and 31 tags, and a layout that is set is one of the catalog. -/
def LayoutOp.Allowed : LayoutOp → Prop
  | .syncTagSlots n => 1 ≤ n ∧ n ≤ 31
  | .setNewLayout layout _ => layout.inCycle = true
  | _ => True

/-- A change of the tag count leaves a tag in the set that is not selected. -/
def WMMonitor.KeepsOther (m : WMMonitor) : LayoutOp → Prop
  | .syncTagSlots n => m.tagSet (m.selTags + 1) &&& lowMask n ≠ 0
  | _ => True

/-- Both slot numbers name slots there are. -/
structure WMMonitor.Slotted (m : WMMonitor) (p : Pertag) (n : Nat) : Prop extends m.Arranged p n where
  cur : p.curTag ≤ n
  prev : p.prevTag ≤ n

section Steps

variable {m : WMMonitor} {p : Pertag} {n : Nat}

theorem slotted_applyPertagContext (h : m.Arranged p n) (hc : p.curTag ≤ n) (idx : Nat) :
    ∃ p', (m.applyPertagContext idx).Slotted p' n := by
  have hm := mirrors_applyPertagContext h.pertag h.even (Nat.succ_pos n) idx
  have hcur : p.clampTag idx < n + 1 := hm.cur
  exact ⟨_, ⟨hm.pertag, hm.even, h.one_le, h.le, tuned_applyPertagContext h.pertag h.tuned idx⟩,
    Nat.le_of_lt_succ hcur, hc⟩

theorem slotted_viewTag (h : m.Slotted p n) (mask : BitVec 32) (toggle : Bool) :
    ∃ p', (m.viewTag mask toggle).1.Slotted p' n := by
  rcases viewTag_cases m mask toggle with ⟨-, e⟩ | ⟨-, e⟩
  · rw [e]; exact ⟨p, h⟩
  · rw [e]
    have hs : (m.switchTags (m.viewMask mask toggle)).Arranged p n := ⟨h.pertag, h.even, h.one_le, h.le,
      ⟨h.tuned.slots, h.tuned.live, h.tuned.defaults, h.tuned.lt, h.tuned.prevLt⟩⟩
    exact slotted_applyPertagContext hs h.cur _

theorem WMMonitor.Arranged.atSlot (h : m.Arranged p n) (c : Nat) : (m.atSlot p c).Arranged { p with curTag := c } n :=
  ⟨rfl, ⟨h.even.nMasters, h.even.mFacts, h.even.gaps, h.even.lts, h.even.prevLts, h.even.showBars, h.even.sel⟩,
    h.one_le, h.le, ⟨h.tuned.slots.at p.prevTag c, h.tuned.live, h.tuned.defaults, h.tuned.lt, h.tuned.prevLt⟩⟩

theorem arranged_setTags (h : m.Arranged p n) (i : Fin 2) (mask : BitVec 32) : (m.setTags i mask).Arranged p n :=
  ⟨h.pertag, h.even, h.one_le, h.le, ⟨h.tuned.slots, h.tuned.live, h.tuned.defaults, h.tuned.lt, h.tuned.prevLt⟩⟩

theorem arranged_repairActiveTags (h : m.Arranged p n) (hc : p.curTag ≤ n) (mask : BitVec 32) :
    ∃ p', (m.repairActiveTags n mask).Arranged p' n ∧ p'.curTag ≤ n := by
  have h1 := h.one_le
  rcases repairActiveTags_cases h.pertag n mask with ⟨-, e⟩ | ⟨-, c, bit, e, hbit⟩
  · rw [e]; exact ⟨p, h, hc⟩
  · rw [e]
    refine ⟨_, arranged_setTags (h.atSlot c) _ _, ?_⟩
    show c ≤ n
    rcases hbit with ⟨rfl, -⟩ | ⟨rfl, -, -⟩
    · exact h1
    · unfold repairSlot
      split <;> omega

theorem arranged_describeActiveTags (h : m.Arranged p n) (hc : p.curTag ≤ n) :
    ∃ p', m.describeActiveTags.Arranged p' n ∧ p'.curTag ≤ n := by
  rcases describeActiveTags_cases h.pertag with ⟨-, e⟩ | ⟨hall, e⟩ | ⟨-, e, -⟩
  · rw [e]; exact ⟨_, h.atSlot 0, Nat.zero_le n⟩
  · rw [e]
    refine ⟨_, h.atSlot _, ?_⟩
    unfold Pertag.slotForMask
    rw [hall, if_neg Bool.false_ne_true]
    exact Nat.le_of_lt_succ (h.even.clampTag_lt (Nat.succ_pos n) _)
  · rw [e]; exact ⟨p, h, hc⟩

section

variable (h : m.Slotted p n)
include h

theorem slotted_syncTagSlots {k : Nat} (h1 : 1 ≤ k) (hk : k ≤ 31) (mask : BitVec 32) :
    ∃ p', (m.syncTagSlots k mask).Slotted p' k := by
  unfold syncTagSlots
  simp only [h.pertag, map_some]
  have hcur : p.curTag < p.sel.length := by
    rw [h.even.sel]
    exact Nat.lt_succ_of_le h.cur
  have hc := (resizeForTags_sel h1 hk m.layoutDefaults.nMaster m.layoutDefaults.mFact m.layoutDefaults.gap m.lt
    m.prevLt (p.showBars.head?.getD true) hcur).2
  have he := h.even.resizeForTags h1 hk m.layoutDefaults.nMaster m.layoutDefaults.mFact m.layoutDefaults.gap m.lt
    m.prevLt (p.showBars.head?.getD true)
  have ht := h.tuned.slots.resizeForTags h.tuned.defaults h.tuned.lt h.tuned.prevLt k (p.showBars.head?.getD true)
  generalize p.resizeForTags k m.layoutDefaults.nMaster m.layoutDefaults.mFact m.layoutDefaults.gap m.lt m.prevLt
    (p.showBars.head?.getD true) = q at hc he ht
  have hq : ({ m with pertag := some q, tagSet := fun i => m.tagSet i &&& mask } : WMMonitor).Arranged q k :=
    ⟨rfl, he, h1, hk, ⟨ht, h.tuned.live, h.tuned.defaults, h.tuned.lt, h.tuned.prevLt⟩⟩
  obtain ⟨q1, hq1, hc1⟩ := arranged_repairActiveTags hq hc mask
  obtain ⟨q2, hq2, hc2⟩ := arranged_describeActiveTags hq1 hc1
  exact slotted_applyPertagContext hq2 hc2 _

theorem slotted_updateLayout {layout : MonitorLayout} (hl : layout.Tuned) :
    ∃ p', (updateCurrentTagLayoutParams { m with layout := layout }).Slotted p' n := by
  have he := h.even
  have ht := h.tuned
  simp only [h.pertag]
  refine ⟨_, ⟨rfl, ⟨?_, ?_, ?_, he.lts, he.prevLts, he.showBars, he.sel⟩, h.one_le, h.le,
    ⟨?_, hl, ht.defaults, ht.lt, ht.prevLt⟩⟩, h.cur, h.prev⟩
  · rw [length_set]; exact he.nMasters
  · rw [length_set]; exact he.mFacts
  · rw [length_set]; exact he.gaps
  · exact ⟨forall_mem_set ht.slots.nMasters hl.nMaster _, forall_mem_set ht.slots.mFacts hl.mFact _,
      forall_mem_set ht.slots.gaps hl.gap _, ht.slots.lts, ht.slots.prevLts⟩

theorem slotted_clearCurrentLayoutResize : m.clearCurrentLayoutResize.Slotted p n :=
  ⟨⟨h.pertag, h.even, h.one_le, h.le,
    ⟨h.tuned.slots, h.tuned.live, h.tuned.defaults, h.tuned.lt, h.tuned.prevLt⟩⟩, h.cur, h.prev⟩

theorem slotted_setNMaster {newN : Nat} (hn : newN ≤ maxNMaster) : ∃ p', (m.setNMaster newN).Slotted p' n := by
  unfold setNMaster
  split
  · exact ⟨p, h⟩
  · exact slotted_updateLayout (slotted_clearCurrentLayoutResize h) ⟨hn, h.tuned.live.mFact, h.tuned.live.gap⟩

theorem slotted_setmfact (f : Float32) : ∃ p', (m.setmfact f).Slotted p' n := by
  unfold setmfact
  split
  · exact ⟨p, h⟩
  · simp only
    generalize (if f < 1.0 then f + m.layout.mFact else f - 1.0) = newMfact
    split
    · exact ⟨p, h⟩
    · rename_i hin
      rw [Bool.or_eq_true, not_or, Bool.not_eq_true', Bool.not_eq_false] at hin
      exact slotted_updateLayout (slotted_clearCurrentLayoutResize h) ⟨h.tuned.live.nMaster, hin.1, h.tuned.live.gap⟩

theorem slotted_setgaps (delta : Int) : ∃ p', (m.setgaps delta).Slotted p' n := by
  unfold setgaps
  simp only
  split
  · exact ⟨p, h⟩
  · exact slotted_updateLayout h ⟨h.tuned.live.nMaster, h.tuned.live.mFact, adjustedGap_range _ _⟩

theorem slotted_setNewLayout {layout : LayoutEnum} (hl : layout.inCycle = true) (curTag : Nat) :
    ∃ p', (m.setNewLayout layout curTag).Slotted p' n := by
  have he := h.even
  have ht := h.tuned
  unfold setNewLayout
  split
  · exact ⟨p, h⟩
  · simp only [h.pertag, map_some]
    split
    · rename_i hlt
      rw [getElem?_eq_getElem hlt]
      refine ⟨_, ⟨rfl, ⟨he.nMasters, he.mFacts, he.gaps, ?_, ?_, he.showBars, he.sel⟩, h.one_le, h.le,
        ⟨⟨ht.slots.nMasters, ht.slots.mFacts, ht.slots.gaps, ?_, ?_⟩, ht.live, ht.defaults, hl, ht.lt⟩⟩, h.cur, h.prev⟩
      · rw [length_set]; exact he.lts
      · rw [length_set]; exact he.prevLts
      · exact forall_mem_set ht.slots.lts hl _
      · exact forall_mem_set ht.slots.prevLts (ht.slots.lts _ (getElem_mem hlt)) _
    · exact ⟨p, ⟨rfl, he, h.one_le, h.le, ⟨ht.slots, ht.live, ht.defaults, hl, ht.lt⟩⟩, h.cur, h.prev⟩

theorem slotted_perform {op : LayoutOp} (ha : op.Allowed) : ∃ p' n', (m.perform op).Slotted p' n' := by
  cases op with
  | viewTag mask toggle => exact (slotted_viewTag h mask toggle).imp fun _ h => ⟨n, h⟩
  | syncTagSlots k => exact (slotted_syncTagSlots h ha.1 ha.2 _).imp fun _ h => ⟨k, h⟩
  | setmfact f => exact (slotted_setmfact h f).imp fun _ h => ⟨n, h⟩
  | incnmaster i | setnmaster i => exact (slotted_setNMaster h (adjustedNMaster_le _ _)).imp fun _ h => ⟨n, h⟩
  | setgaps delta => exact (slotted_setgaps h delta).imp fun _ h => ⟨n, h⟩
  | setNewLayout layout curTag => exact (slotted_setNewLayout h ha curTag).imp fun _ h => ⟨n, h⟩

end

/-! ## Tag sets -/

section

variable (m : WMMonitor)

theorem applyPertagContext_tagSet (idx : Nat) : (m.applyPertagContext idx).tagSet = m.tagSet := by
  unfold applyPertagContext
  cases m.pertag <;> rfl

theorem describeActiveTags_tagSet : m.describeActiveTags.tagSet = m.tagSet := by
  cases hp : m.pertag with
  | none => unfold describeActiveTags; rw [hp]
  | some p => rcases describeActiveTags_cases hp with ⟨-, e⟩ | ⟨-, e⟩ | ⟨-, e, -⟩ <;> rw [e] <;> rfl

theorem updateCurrentTagLayoutParams_tagSet : m.updateCurrentTagLayoutParams.tagSet = m.tagSet := by
  unfold updateCurrentTagLayoutParams
  cases m.pertag <;> rfl

theorem setNMaster_tagSet (newN : Nat) : (m.setNMaster newN).tagSet = m.tagSet := by
  unfold setNMaster
  split
  · rfl
  · exact updateCurrentTagLayoutParams_tagSet _

theorem setmfact_tagSet (f : Float32) : (m.setmfact f).tagSet = m.tagSet := by
  unfold setmfact
  split
  · rfl
  · simp only
    generalize (if f < 1.0 then f + m.layout.mFact else f - 1.0) = newMfact
    split
    · rfl
    · exact updateCurrentTagLayoutParams_tagSet _

theorem setgaps_tagSet (delta : Int) : (m.setgaps delta).tagSet = m.tagSet := by
  unfold setgaps
  simp only
  split
  · rfl
  · exact updateCurrentTagLayoutParams_tagSet _

theorem setNewLayout_tagSet (layout : LayoutEnum) (curTag : Nat) :
    (m.setNewLayout layout curTag).tagSet = m.tagSet := by
  unfold setNewLayout
  split <;> rfl

theorem forall_tagSet (s : Fin 2) : (∀ i, m.tagSet i ≠ 0) ↔ m.tagSet s ≠ 0 ∧ m.tagSet (s + 1) ≠ 0 := by
  rw [Fin.forall_fin_two]
  match s with
  | 0 => exact Iff.rfl
  | 1 => exact and_comm

end

/-- Views never leave a tag set without a tag. -/
theorem viewTag_tagSet (h : ∀ i, m.tagSet i ≠ 0) (mask : BitVec 32) (toggle : Bool) :
    ∀ i, (m.viewTag mask toggle).1.tagSet i ≠ 0 := by
  rcases viewTag_cases m mask toggle with ⟨-, e⟩ | ⟨h0, e⟩
  · rw [e]; exact h
  · rw [e, applyPertagContext_tagSet]
    intro i
    show Function.update m.tagSet (m.selTags + 1) (m.viewMask mask toggle) i ≠ 0
    by_cases hi : i = m.selTags + 1
    · rw [hi, Function.update_self]; exact h0
    · rw [Function.update_of_ne hi]; exact h i

/-- A change of the tag count masks both sets and repairs the selected one alone. -/
theorem syncTagSlots_tagSet (h : m.Slotted p n) (k : Nat) (mask : BitVec 32) :
    (m.syncTagSlots k mask).tagSet (m.selTags + 1) = m.tagSet (m.selTags + 1) &&& mask ∧
      (m.syncTagSlots k mask).tagSet m.selTags ≠ 0 := by
  unfold syncTagSlots reloadCurrentTagContext
  simp only [h.pertag, map_some]
  rw [applyPertagContext_tagSet, describeActiveTags_tagSet]
  generalize p.resizeForTags k m.layoutDefaults.nMaster m.layoutDefaults.mFact m.layoutDefaults.gap m.lt m.prevLt
    (p.showBars.head?.getD true) = q
  have hne : m.selTags + 1 ≠ m.selTags := by
    generalize m.selTags = s
    match s with
    | 0 => decide
    | 1 => decide
  rcases repairActiveTags_cases
    (m := { m with pertag := some q, tagSet := fun i => m.tagSet i &&& mask }) (p := q) rfl k mask
    with ⟨h0, e⟩ | ⟨-, c, bit, e, hbit⟩
  · rw [e]; exact ⟨rfl, h0⟩
  · rw [e]
    have hb : bit ≠ 0 := by
      rcases hbit with ⟨-, rfl⟩ | ⟨-, -, hb⟩
      · decide
      · exact hb
    constructor
    · exact Function.update_of_ne hne _ _
    · show Function.update (fun i => m.tagSet i &&& mask) m.selTags bit m.selTags ≠ 0
      rw [Function.update_self]
      exact hb

/-- A command leaves both sets with a tag exactly when it keeps one in the set that is not selected. -/
theorem perform_tagSet (h : m.Slotted p n) (h0 : ∀ i, m.tagSet i ≠ 0) (op : LayoutOp) :
    (∀ i, (m.perform op).tagSet i ≠ 0) ↔ m.KeepsOther op := by
  have same : ∀ {m' : WMMonitor}, m'.tagSet = m.tagSet → ((∀ i, m'.tagSet i ≠ 0) ↔ True) := by
    intro m' e
    rw [e]
    exact iff_true_intro h0
  cases op with
  | viewTag mask toggle => exact iff_true_intro (viewTag_tagSet h0 mask toggle)
  | syncTagSlots k =>
    obtain ⟨hother, hactive⟩ := syncTagSlots_tagSet h k (lowMask k)
    show (∀ i, (m.syncTagSlots k (lowMask k)).tagSet i ≠ 0) ↔ m.tagSet (m.selTags + 1) &&& lowMask k ≠ 0
    rw [forall_tagSet _ m.selTags, hother]
    exact and_iff_right hactive
  | setmfact f => exact same (setmfact_tagSet m f)
  | incnmaster i | setnmaster i => exact same (setNMaster_tagSet m _)
  | setgaps delta => exact same (setgaps_tagSet m delta)
  | setNewLayout layout curTag => exact same (setNewLayout_tagSet m layout curTag)

end Steps

/-! ## Runs -/

section Runs

variable {m : WMMonitor} {p : Pertag} {n : Nat} {ops : List LayoutOp}

/-- From a state that hands over, all later ones do exactly when no change of the tag count takes the
last tag from the set that is not selected. -/
theorem handsOver_run : ∀ {ops : List LayoutOp} {m : WMMonitor} {p : Pertag} {n : Nat}, m.Slotted p n →
    (∀ i, m.tagSet i ≠ 0) → (∀ op ∈ ops, op.Allowed) →
    ((∀ k, (after performs m (ops.take k)).handsOver = true) ↔
      Along WMMonitor.KeepsOther performs m ops)
  | [], m, p, n, h, h0, _ => by
    have hnow : m.handsOver = true := (handsOver_iff h.toArranged).2 ⟨h0, h.cur, h.prev⟩
    exact ⟨fun _ => trivial, fun _ k => by rw [take_nil]; exact hnow⟩
  | op :: ops, m, p, n, h, h0, ha => by
    have hnow : m.handsOver = true := (handsOver_iff h.toArranged).2 ⟨h0, h.cur, h.prev⟩
    obtain ⟨p', n', h'⟩ := slotted_perform h (ha op mem_cons_self)
    have hsets := perform_tagSet h h0 op
    have later : ∀ op' ∈ ops, op'.Allowed := fun op' ho => ha op' (mem_cons_of_mem _ ho)
    constructor
    · intro hall
      have hnext : (m.perform op).handsOver = true := hall 1
      have h0' := ((handsOver_iff h'.toArranged).1 hnext).1
      exact ⟨hsets.1 h0', (handsOver_run h' h0' later).1 fun k => hall (k + 1)⟩
    · rintro ⟨hkeep, hrest⟩ k
      cases k with
      | zero => exact hnow
      | succ k => exact (handsOver_run h' (hsets.2 hkeep) later).2 hrest k

/-- A monitor whose tag sets hold tags and whose layout parameters are within their limits can be handed over on restart
after every command of a sequence exactly when its slot numbers name slots there are at the start, and no change of the tag
count takes the last tag from the tag set that is not selected. -/
theorem restart_accepts_arrangement_iff (h : m.Arranged p n) (h0 : ∀ i, m.tagSet i ≠ 0)
    (hops : ∀ op ∈ ops, op.Allowed) :
    (∀ k, (after WMMonitor.performs m (ops.take k)).handsOver = true) ↔
      p.curTag ≤ n ∧ p.prevTag ≤ n ∧ Along WMMonitor.KeepsOther WMMonitor.performs m ops := by
  constructor
  · intro hall
    obtain ⟨-, hcur, hprev⟩ := (handsOver_iff h).1 (hall 0)
    exact ⟨hcur, hprev, (handsOver_run ⟨h, hcur, hprev⟩ h0 hops).1 hall⟩
  · rintro ⟨hcur, hprev, hkeep⟩
    exact (handsOver_run ⟨h, hcur, hprev⟩ h0 hops).2 hkeep

end Runs

namespace Sample

theorem tagged_arranged : tagged.Arranged { Pertag.new true 3 with
      curTag := 1, prevTag := 1, nMasters := [1, 1, 1, 1], mFacts := [0.55, 0.55, 0.55, 0.55] } 3 := by
  have hfact : mFactInRange 0.55 = true := by decide
  refine ⟨rfl, ⟨rfl, rfl, rfl, rfl, rfl, rfl, rfl⟩, by decide, by decide, ⟨⟨?_, ?_, ?_, ?_, ?_⟩, ?_, ?_, rfl, rfl⟩⟩
  · decide
  · intro f hf
    have hf : f ∈ replicate 4 (0.55 : Float32) := hf
    rw [eq_of_mem_replicate hf]
    exact hfact
  · decide
  · decide
  · decide
  · exact ⟨by decide, hfact, by decide⟩
  · exact ⟨by decide, hfact, by decide⟩

end Sample

/-- Both tag sets of the sample monitor keep a tag when its second one goes. -/
theorem restart_accepts_arrangement_sample :
    (∀ k, (after WMMonitor.performs Sample.tagged
      ([.viewTag 4 false, .viewTag 2 false, .viewTag 1 false, .setgaps 8, .syncTagSlots 2].take k)).handsOver = true) ↔
    (1 ≤ 3 ∧ 1 ≤ 3 ∧ Along WMMonitor.KeepsOther WMMonitor.performs Sample.tagged
      [.viewTag 4 false, .viewTag 2 false, .viewTag 1 false, .setgaps 8, .syncTagSlots 2]) :=
  restart_accepts_arrangement_iff Sample.tagged_arranged (by decide) (by
    intro op hop
    simp only [mem_cons, not_mem_nil, or_false] at hop
    rcases hop with rfl | rfl | rfl | rfl | rfl
    · trivial
    · trivial
    · trivial
    · trivial
    · exact ⟨by decide, by decide⟩)

/-- Coming back from the third tag and then losing all but the first leaves the other tag set empty,
and the record is refused. -/
theorem restart_refuses_emptied_tag_set :
    (Sample.tagged.pertag.map fun p => (p.curTag, p.prevTag)) = some (1, 1) ∧
    (∀ i, Sample.tagged.tagSet i ≠ 0 ∧ Below (Sample.tagged.tagSet i) 3) ∧
    Below 4 3 ∧ Below 1 3 ∧
    (after WMMonitor.performs Sample.tagged [.viewTag 4 false, .viewTag 1 false]).handsOver = true ∧
    (after WMMonitor.performs Sample.tagged
      [.viewTag 4 false, .viewTag 1 false, .syncTagSlots 1]).handsOver = false := by
  refine ⟨rfl, by decide, by decide, by decide, ?_, ?_⟩ <;> decide +kernel

end Jwm
