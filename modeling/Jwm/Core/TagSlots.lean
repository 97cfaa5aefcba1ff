/-
What the tag operations of a monitor keep. The live layout parameters mirror the current slot of the
`Pertag`, and the current slot describes the viewed tags: slot 0 when all of them are viewed, else
the slot of a viewed tag.
-/
import Jwm.Core.Monitor

namespace Jwm

open List Option

/-! ## Even vectors -/

/-- All vectors of the `Pertag` have length `len`. -/
structure Pertag.Even (p : Pertag) (len : Nat) : Prop where
  nMasters : p.nMasters.length = len
  mFacts : p.mFacts.length = len
  gaps : p.gaps.length = len
  lts : p.lts.length = len
  prevLts : p.prevLts.length = len
  showBars : p.showBars.length = len
  sel : p.sel.length = len

open Pertag

theorem Pertag.Even.clampTag_lt {p : Pertag} {len : Nat} (h : p.Even len) (hl : 0 < len) (idx : Nat) :
    p.clampTag idx < len := by
  unfold clampTag
  rw [h.sel, if_neg (by omega)]
  omega

theorem clampTag_of_le {p : Pertag} {n idx : Nat} (hs : p.sel.length = n + 1) (h : idx ≤ n) : p.clampTag idx = idx := by
  unfold clampTag
  rw [hs, if_neg (by omega)]
  omega

theorem Pertag.Even.resizeForTags {p : Pertag} {len n : Nat} (h : p.Even len) (h1 : 1 ≤ n) (h31 : n ≤ 31)
    (nMaster : Nat) (mFact : Float32) (gap : Int) (lt prevLt : LayoutEnum) (showBar : Bool) :
    (p.resizeForTags n nMaster mFact gap lt prevLt showBar).Even (n + 1) := by
  have hn : max 1 (min n 31) = n := by omega
  unfold Pertag.resizeForTags
  rw [hn]
  simp only
  split
  · rename_i he
    rw [h.sel] at he
    rw [← he]
    exact h
  · constructor <;> exact length_resize ..

/-! ## The live fields mirror the slot -/

/-- The live parameters are those of the current slot, which exists. -/
structure WMMonitor.Mirrors (m : WMMonitor) (p : Pertag) (len : Nat) : Prop where
  pertag : m.pertag = some p
  even : p.Even len
  cur : p.curTag < len
  nMaster : p.nMasters[p.curTag]? = some m.layout.nMaster
  mFact : p.mFacts[p.curTag]? = some m.layout.mFact
  gap : p.gaps[p.curTag]? = some m.layout.gap
  lt : p.lts[p.curTag]? = some m.lt
  prevLt : p.prevLts[p.curTag]? = some m.prevLt

variable {α : Type} {l : List α} {i c : Nat}

section Mirror

variable {m m' : WMMonitor} {p : Pertag} {len : Nat}

theorem getElem?_getD (h : i < l.length) (d : α) : l[i]? = some (l[i]?.getD d) := by
  rw [getElem?_eq_getElem h]; rfl

open WMMonitor

theorem mirrors_applyPertagContext (hp : m.pertag = some p) (he : p.Even len) (hl : 0 < len) (idx : Nat) :
    (m.applyPertagContext idx).Mirrors { p with prevTag := p.curTag, curTag := p.clampTag idx } len := by
  have hlt := he.clampTag_lt hl idx
  unfold applyPertagContext
  simp only [hp]
  refine ⟨rfl, ⟨he.nMasters, he.mFacts, he.gaps, he.lts, he.prevLts, he.showBars, he.sel⟩, hlt, ?_, ?_, ?_, ?_, ?_⟩
  · exact getElem?_getD (he.nMasters ▸ hlt) _
  · exact getElem?_getD (he.mFacts ▸ hlt) _
  · exact getElem?_getD (he.gaps ▸ hlt) _
  · exact getElem?_getD (he.lts ▸ hlt) _
  · exact getElem?_getD (he.prevLts ▸ hlt) _

theorem viewTag_cases (m : WMMonitor) (mask : BitVec 32) (toggle : Bool) :
    (m.viewMask mask toggle = 0 ∧ (m.viewTag mask toggle).1 = m) ∨
    (m.viewMask mask toggle ≠ 0 ∧ (m.viewTag mask toggle).1 =
      (m.switchTags (m.viewMask mask toggle)).applyPertagContext (m.viewSlot (m.viewMask mask toggle))) := by
  unfold viewTag
  by_cases h0 : m.viewMask mask toggle = 0
  · exact .inl ⟨h0, by simp only [if_pos h0]⟩
  · exact .inr ⟨h0, by simp only [if_neg h0]; rfl⟩

theorem mirrors_viewTag (h : m.Mirrors p len) (mask : BitVec 32) (toggle : Bool) :
    ∃ p' len', (m.viewTag mask toggle).1.Mirrors p' len' := by
  rcases viewTag_cases m mask toggle with ⟨-, e⟩ | ⟨-, e⟩
  · rw [e]; exact ⟨p, len, h⟩
  · have hp : (m.switchTags (m.viewMask mask toggle)).pertag = some p := h.pertag
    rw [e]
    exact ⟨_, len, mirrors_applyPertagContext hp h.even (Nat.zero_lt_of_lt h.cur) _⟩

def WMMonitor.atSlot (m : WMMonitor) (p : Pertag) (c : Nat) : WMMonitor := { m with pertag := some { p with curTag := c } }

section

variable (hp : m.pertag = some p)
include hp

/-- Repairing an active mask without a tag makes it a single tag and moves to its slot. -/
theorem repairActiveTags_cases (n : Nat) (mask : BitVec 32) : (m.activeTags ≠ 0 ∧ m.repairActiveTags n mask = m) ∨
    (m.activeTags = 0 ∧ ∃ c bit, m.repairActiveTags n mask = (m.atSlot p c).setTags m.selTags bit ∧
      ((c = 1 ∧ bit = 1) ∨ (c = repairSlot p n ∧ bit = checkedBit (c - 1) &&& mask ∧ bit ≠ 0))) := by
  unfold repairActiveTags
  by_cases h0 : m.activeTags = 0
  · rw [if_neg (by simpa using h0)]
    refine .inr ⟨h0, ?_⟩
    simp only [hp]
    by_cases hb : checkedBit (repairSlot p n - 1) &&& mask = 0
    · rw [if_pos hb]
      exact ⟨1, 1, rfl, .inl ⟨rfl, rfl⟩⟩
    · rw [if_neg hb]
      exact ⟨_, _, rfl, .inr ⟨rfl, rfl, hb⟩⟩
  · exact .inl ⟨h0, if_pos h0⟩

/-- The slot moves to 0 when all tags are viewed, and off a tag that is not viewed. -/
theorem describeActiveTags_cases : (p.isAllTags m.activeTags = true ∧ m.describeActiveTags = m.atSlot p 0) ∨
    (p.isAllTags m.activeTags = false ∧ m.describeActiveTags = m.atSlot p (p.slotForMask m.activeTags)) ∨
    (p.isAllTags m.activeTags = false ∧ m.describeActiveTags = m ∧ p.curTag ≠ 0 ∧
      m.activeTags &&& checkedBit (p.curTag - 1) ≠ 0) := by
  unfold describeActiveTags
  simp only [hp]
  cases ha : p.isAllTags m.activeTags with
  | true => exact .inl ⟨rfl, by simp [atSlot]⟩
  | false =>
    by_cases hc : p.curTag = 0
    · refine .inr (.inl ⟨rfl, ?_⟩)
      simp [hc, atSlot]
    · by_cases hb : m.activeTags &&& checkedBit (p.curTag - 1) = 0
      · refine .inr (.inl ⟨rfl, ?_⟩)
        simp [hc, hb, atSlot]
      · refine .inr (.inr ⟨rfl, ?_, hc, hb⟩)
        rw [if_neg Bool.false_ne_true, if_neg hc, if_neg hb]

theorem repairActiveTags_pertag (n : Nat) (mask : BitVec 32) :
    ∃ c, (m.repairActiveTags n mask).pertag = some { p with curTag := c } := by
  rcases repairActiveTags_cases hp n mask with ⟨-, e⟩ | ⟨-, c, bit, e, -⟩
  · exact ⟨p.curTag, by rw [e, hp]⟩
  · exact ⟨c, by rw [e]; rfl⟩

theorem describeActiveTags_pertag : ∃ c, m.describeActiveTags.pertag = some { p with curTag := c } := by
  rcases describeActiveTags_cases hp with ⟨-, e⟩ | ⟨-, e⟩ | ⟨-, e, -⟩
  · exact ⟨0, by rw [e]; rfl⟩
  · exact ⟨p.slotForMask m.activeTags, by rw [e]; rfl⟩
  · exact ⟨p.curTag, by rw [e, hp]⟩

end

theorem mirrors_syncTagSlots (h : m.Mirrors p len) {n : Nat} (h1 : 1 ≤ n) (h31 : n ≤ 31) (mask : BitVec 32) :
    ∃ p' len', (m.syncTagSlots n mask).Mirrors p' len' := by
  unfold syncTagSlots
  simp only [h.pertag, map_some]
  have hr := h.even.resizeForTags h1 h31 m.layoutDefaults.nMaster m.layoutDefaults.mFact m.layoutDefaults.gap m.lt
    m.prevLt (p.showBars.head?.getD true)
  generalize p.resizeForTags n m.layoutDefaults.nMaster m.layoutDefaults.mFact m.layoutDefaults.gap m.lt m.prevLt
    (p.showBars.head?.getD true) = q at hr
  generalize hm1 : ({ m with pertag := some q, tagSet := fun i => m.tagSet i &&& mask } : WMMonitor) = m1
  have hp1 : m1.pertag = some q := by rw [← hm1]
  obtain ⟨c, hc⟩ := repairActiveTags_pertag hp1 n mask
  obtain ⟨c', hc'⟩ := describeActiveTags_pertag hc
  refine ⟨_, n + 1, mirrors_applyPertagContext hc' ?_ (Nat.succ_pos n) _⟩
  exact ⟨hr.nMasters, hr.mFacts, hr.gaps, hr.lts, hr.prevLts, hr.showBars, hr.sel⟩

theorem map_retune_getElem? {T : Type} [BEq T] {l : List T} {v : T} (h : l[i]? = some v) (a b : T) :
    (l.map (retune · a b))[i]? = some (retune v a b) := by
  rw [getElem?_map, h]; rfl

theorem mirrors_retune (h : m.Mirrors p len) (defaults : LayoutDefaults) :
    ∃ p' len', (m.retuneLayoutDefaults defaults).Mirrors p' len' := by
  unfold retuneLayoutDefaults
  simp only
  split
  · exact ⟨p, len, h.pertag, h.even, h.cur, h.nMaster, h.mFact, h.gap, h.lt, h.prevLt⟩
  · simp only [h.pertag, map_some]
    refine ⟨_, len, rfl, ?_, h.cur, map_retune_getElem? h.nMaster _ _, map_retune_getElem? h.mFact _ _,
      map_retune_getElem? h.gap _ _, h.lt, h.prevLt⟩
    refine ⟨?_, ?_, ?_, h.even.lts, h.even.prevLts, h.even.showBars, h.even.sel⟩
    · rw [length_map]; exact h.even.nMasters
    · rw [length_map]; exact h.even.mFacts
    · rw [length_map]; exact h.even.gaps

theorem set_getElem? (h : i < l.length) (a : α) : (l.set i a)[i]? = some a := by
  rw [getElem?_set_self h]

theorem mirrors_setNewLayout (h : m.Mirrors p len) (layout : LayoutEnum) :
    ∃ p' len', (m.setNewLayout layout p.curTag).Mirrors p' len' := by
  have hlt : p.curTag < p.lts.length := h.even.lts ▸ h.cur
  have hplt : p.curTag < p.prevLts.length := h.even.prevLts ▸ h.cur
  unfold setNewLayout
  split
  · exact ⟨p, len, h⟩
  · simp only [h.pertag, map_some, if_pos hlt, h.lt]
    refine ⟨_, len, rfl, ⟨h.even.nMasters, h.even.mFacts, h.even.gaps, ?_, ?_, h.even.showBars, h.even.sel⟩, h.cur,
      h.nMaster, h.mFact, h.gap, set_getElem? hlt _, set_getElem? hplt _⟩
    · rw [length_set]; exact h.even.lts
    · rw [length_set]; exact h.even.prevLts

theorem mirrors_updateLayout (h : m.Mirrors p len) (layout : MonitorLayout) :
    ∃ p' len', (updateCurrentTagLayoutParams { m with layout := layout }).Mirrors p' len' := by
  have hc : p.clampTag p.curTag = p.curTag := by
    have := h.cur
    have hs : p.sel.length = (len - 1) + 1 := by rw [h.even.sel]; omega
    exact clampTag_of_le hs (by omega)
  unfold updateCurrentTagLayoutParams
  simp only [h.pertag, hc]
  refine ⟨_, len, rfl, ⟨?_, ?_, ?_, h.even.lts, h.even.prevLts, h.even.showBars, h.even.sel⟩, h.cur,
    set_getElem? (h.even.nMasters ▸ h.cur) _, set_getElem? (h.even.mFacts ▸ h.cur) _,
    set_getElem? (h.even.gaps ▸ h.cur) _, h.lt, h.prevLt⟩
  · rw [length_set]; exact h.even.nMasters
  · rw [length_set]; exact h.even.mFacts
  · rw [length_set]; exact h.even.gaps

end Mirror

/-- An operation on a monitor's layout parameters. -/
inductive LayoutStep : WMMonitor → WMMonitor → Prop
  | viewTag {m} (mask : BitVec 32) (toggle : Bool) : LayoutStep m (m.viewTag mask toggle).1
  | syncTagSlots {m n} (h1 : 1 ≤ n) (h31 : n ≤ 31) : LayoutStep m (m.syncTagSlots n (lowMask n))
  | retuneLayoutDefaults {m} (defaults : LayoutDefaults) : LayoutStep m (m.retuneLayoutDefaults defaults)
  | setNewLayout {m p} (layout : LayoutEnum) (hp : m.pertag = some p) : LayoutStep m (m.setNewLayout layout p.curTag)
  | updateLayout {m} (layout : MonitorLayout) :
      LayoutStep m (WMMonitor.updateCurrentTagLayoutParams { m with layout := layout })

theorem mirrors_step {m m' : WMMonitor} {p : Pertag} {len : Nat} (h : m.Mirrors p len) (st : LayoutStep m m') :
    ∃ p' len', m'.Mirrors p' len' := by
  cases st with
  | viewTag mask toggle => exact mirrors_viewTag h mask toggle
  | syncTagSlots h1 h31 => exact mirrors_syncTagSlots h h1 h31 _
  | retuneLayoutDefaults defaults => exact mirrors_retune h defaults
  | setNewLayout layout hp =>
    rw [h.pertag] at hp
    cases hp
    exact mirrors_setNewLayout h layout
  | updateLayout layout => exact mirrors_updateLayout h layout

/-- After any sequence of tag operations and parameter changes the live layout parameters are those of the current slot, all
vectors are as long as each other and the current slot is one of theirs. -/
theorem layout_mirrors_current_slot {m m' : WMMonitor} {p : Pertag} {len : Nat} (h : m.Mirrors p len)
    (hr : Relation.ReflTransGen LayoutStep m m') : ∃ p' len', m'.Mirrors p' len' := by
  induction hr with
  | refl => exact ⟨p, len, h⟩
  | tail _ st ih =>
    obtain ⟨p1, len1, h1⟩ := ih
    exact mirrors_step h1 st

namespace Sample

/-- A monitor as it is created: three tags, the first one viewed. -/
def tagged : WMMonitor :=
  { WMMonitor.new with
    tagSet := fun _ => 1
    pertag := some
      { Pertag.new true 3 with
        curTag := 1, prevTag := 1, nMasters := [1, 1, 1, 1], mFacts := [0.55, 0.55, 0.55, 0.55] } }

theorem tagged_mirrors : tagged.Mirrors { Pertag.new true 3 with
      curTag := 1, prevTag := 1, nMasters := [1, 1, 1, 1], mFacts := [0.55, 0.55, 0.55, 0.55] } 4 := by
  refine ⟨rfl, ⟨rfl, rfl, rfl, rfl, rfl, rfl, rfl⟩, by decide, rfl, rfl, rfl, rfl, rfl⟩

end Sample

open Sample

/-- The sample monitor views its second tag, tunes it and loses the third. -/
theorem layout_mirrors_current_slot_sample :
    ∃ p len, (WMMonitor.syncTagSlots (WMMonitor.updateCurrentTagLayoutParams
      { (Sample.tagged.viewTag 2 false).1 with layout := ⟨0.6, 2, 8⟩ }) 2 (lowMask 2)).Mirrors p len :=
  layout_mirrors_current_slot tagged_mirrors
    (.tail (.tail (.tail .refl (.viewTag 2 false)) (.updateLayout ⟨0.6, 2, 8⟩)) (.syncTagSlots (by decide) (by decide)))

/-! ## The slot describes the viewed tags -/

/-- `n` tags, of which the active mask names at least one and nothing else. -/
structure WMMonitor.Viewing (m : WMMonitor) (p : Pertag) (n : Nat) : Prop where
  pertag : m.pertag = some p
  sel : p.sel.length = n + 1
  one_le : 1 ≤ n
  le : n ≤ 31
  cur : p.curTag ≤ n
  active : m.activeTags ≠ 0
  below : Below m.activeTags n

/-- Slot 0 exactly when there are several tags and all are viewed, else the slot of a viewed tag. -/
structure Pertag.Describes (p : Pertag) (mask : BitVec 32) (n : Nat) : Prop where
  all : p.curTag = 0 ↔ 2 ≤ n ∧ ∀ i, i < n → mask.getLsbD i = true
  one : p.curTag ≠ 0 → 1 ≤ p.curTag ∧ p.curTag ≤ n ∧ mask.getLsbD (p.curTag - 1) = true

section Describe

variable {m m' : WMMonitor} {p : Pertag} {n : Nat} {mask : BitVec 32}

theorem isAllTags_iff (hs : p.sel.length = n + 1) (hn : n ≤ 31) (hb : Below mask n) :
    p.isAllTags mask = true ↔ 2 ≤ n ∧ ∀ i, i < n → mask.getLsbD i = true := by
  have hlt : n < 32 := by omega
  have hne := below_ne_allOnes hlt hb
  rw [← and_lowMask_eq_iff hlt]
  unfold isAllTags
  rw [hs, Nat.add_sub_cancel]
  simp only [beq_iff_eq, if_neg hne, if_neg (show ¬ n ≥ 32 by omega)]
  by_cases h2 : n < 2
  · rw [if_pos h2]
    constructor
    · intro h; cases h
    · intro h; omega
  · rw [if_neg h2, beq_iff_eq]
    exact ⟨fun h => ⟨by omega, h⟩, fun h => h.2⟩

/-- A slot number that `view_tag` or `sync_tag_slots` may settle on. -/
theorem describes_of (hs : p.sel.length = n + 1) (hn : n ≤ 31) (hb : Below mask n) {prev : Nat}
    (h : if p.isAllTags mask then c = 0 else 1 ≤ c ∧ c ≤ n ∧ mask.getLsbD (c - 1) = true) :
    Pertag.Describes { p with prevTag := prev, curTag := c } mask n := by
  have hall := isAllTags_iff hs hn hb
  cases ha : p.isAllTags mask with
  | true =>
    rw [ha, if_pos rfl] at h
    exact ⟨⟨fun _ => hall.1 ha, fun _ => h⟩, fun hc => absurd h hc⟩
  | false =>
    rw [ha, if_neg Bool.false_ne_true] at h
    refine ⟨⟨fun hc => ?_, fun hv => ?_⟩, fun _ => h⟩
    · have hc : c = 0 := hc
      omega
    · rw [hall.2 hv] at ha
      cases ha

theorem lowest_slot (hn : n ≤ 31) (h0 : mask ≠ 0) (hb : Below mask n) :
    1 ≤ trailingZeros mask + 1 ∧ trailingZeros mask + 1 ≤ n ∧ mask.getLsbD (trailingZeros mask + 1 - 1) = true := by
  have hbit := getLsbD_trailingZeros h0
  have hlt := (below_iff (by omega)).1 hb _ hbit
  exact ⟨by omega, by omega, by rw [Nat.add_sub_cancel]; exact hbit⟩

theorem applyPertagContext_pertag (hp : m.pertag = some p) (idx : Nat) :
    (m.applyPertagContext idx).pertag = some { p with prevTag := p.curTag, curTag := p.clampTag idx } := by
  unfold WMMonitor.applyPertagContext
  simp only [hp]

theorem applyPertagContext_activeTags (m : WMMonitor) (idx : Nat) :
    (m.applyPertagContext idx).activeTags = m.activeTags := by
  unfold WMMonitor.applyPertagContext
  cases m.pertag <;> rfl

theorem setTags_activeTags (m : WMMonitor) (mask : BitVec 32) : (m.setTags m.selTags mask).activeTags = mask := by
  simp [WMMonitor.setTags, WMMonitor.activeTags]

theorem switchTags_activeTags (m : WMMonitor) (mask : BitVec 32) : (m.switchTags mask).activeTags = mask :=
  setTags_activeTags { m with selTags := m.selTags + 1 } mask

theorem viewing_applyPertagContext (hp : m.pertag = some p) (hs : p.sel.length = n + 1) (h1 : 1 ≤ n) (hn : n ≤ 31)
    (h0 : m.activeTags ≠ 0) (hb : Below m.activeTags n)
    (hc : if p.isAllTags m.activeTags then c = 0 else 1 ≤ c ∧ c ≤ n ∧ m.activeTags.getLsbD (c - 1) = true) :
    ∃ p', (m.applyPertagContext c).Viewing p' n ∧ p'.Describes (m.applyPertagContext c).activeTags n := by
  have hle : c ≤ n := by
    split at hc <;> omega
  have hpt := applyPertagContext_pertag hp c
  rw [clampTag_of_le hs hle] at hpt
  rw [applyPertagContext_activeTags]
  refine ⟨_, ⟨hpt, hs, h1, hn, hle, ?_, ?_⟩, describes_of hs hn hb hc⟩
  · rw [applyPertagContext_activeTags]; exact h0
  · rw [applyPertagContext_activeTags]; exact hb

theorem viewSlot_describes (h : m.Viewing p n) (h0 : mask ≠ 0) (hb : Below mask n) :
    if p.isAllTags mask then m.viewSlot mask = 0
    else 1 ≤ m.viewSlot mask ∧ m.viewSlot mask ≤ n ∧ mask.getLsbD (m.viewSlot mask - 1) = true := by
  have hcur := h.cur
  have hn := h.le
  unfold WMMonitor.viewSlot
  rw [h.pertag, any_some, map_some, getD_some]
  cases p.isAllTags mask with
  | true => rfl
  | false =>
    simp only [Bool.false_eq_true, if_false]
    split
    · rename_i hc
      simp only [Bool.and_eq_true, decide_eq_true_eq, bne_iff_ne] at hc
      have hmod : (p.curTag - 1) % 32 = p.curTag - 1 := Nat.mod_eq_of_lt (by omega)
      rw [hmod] at hc
      exact ⟨by omega, hcur, and_bit_ne_zero.1 hc.2⟩
    · exact lowest_slot hn h0 hb

/-- A view that is carried out leaves the slot describing it; a refused one changes nothing. -/
theorem viewing_viewTag (h : m.Viewing p n) (hb : Below mask n) (toggle : Bool) :
    (m.viewMask mask toggle = 0 ∧ (m.viewTag mask toggle).1 = m) ∨
    (m.viewMask mask toggle ≠ 0 ∧ ∃ p', (m.viewTag mask toggle).1.Viewing p' n ∧
      p'.Describes (m.viewTag mask toggle).1.activeTags n) := by
  have hn := h.le
  have hmask : Below (m.viewMask mask toggle) n := by
    unfold WMMonitor.viewMask
    split
    · exact h.below.xor (by omega) hb
    · exact hb
  rcases viewTag_cases m mask toggle with ⟨h0, e⟩ | ⟨h0, e⟩
  · exact .inl ⟨h0, e⟩
  · refine .inr ⟨h0, ?_⟩
    rw [e]
    have ha := switchTags_activeTags m (m.viewMask mask toggle)
    have hp : (m.switchTags (m.viewMask mask toggle)).pertag = some p := h.pertag
    refine viewing_applyPertagContext hp h.sel h.one_le hn (by rw [ha]; exact h0) (by rw [ha]; exact hmask) ?_
    rw [ha]
    exact viewSlot_describes h h0 hmask

theorem resizeForTags_sel (h1 : 1 ≤ n) (hn : n ≤ 31) (nMaster : Nat) (mFact : Float32) (gap : Int)
    (lt prevLt : LayoutEnum) (showBar : Bool) (hcur : p.curTag < p.sel.length) :
    (p.resizeForTags n nMaster mFact gap lt prevLt showBar).sel.length = n + 1 ∧
      (p.resizeForTags n nMaster mFact gap lt prevLt showBar).curTag ≤ n := by
  have hclamp : max 1 (min n 31) = n := by omega
  unfold resizeForTags
  rw [hclamp]
  simp only
  split
  · rename_i he
    exact ⟨he, by omega⟩
  · refine ⟨length_resize .., ?_⟩
    show (if p.curTag ≥ n + 1 then n else p.curTag) ≤ n
    split <;> omega

theorem repairActiveTags_viewing (hp : m.pertag = some p) (hs : p.sel.length = n + 1) (h1 : 1 ≤ n) (hn : n ≤ 31)
    (hcur : p.curTag ≤ n) (hb : Below m.activeTags n) : ∃ p', (m.repairActiveTags n (lowMask n)).Viewing p' n := by
  have hone : Below 1 n := (below_iff (by omega)).2 fun i hi => by
    have : i = 0 := by
      have := BitVec.getLsbD_one (i := i) (w := 32)
      rw [show (1 : BitVec 32) = 1#32 from rfl, this] at hi
      simpa using hi
    omega
  rcases repairActiveTags_cases hp n (lowMask n) with ⟨h0, e⟩ | ⟨-, c, bit, e, hbit⟩
  · rw [e]
    exact ⟨p, hp, hs, h1, hn, hcur, h0, hb⟩
  · rw [e]
    have ha : ((m.atSlot p c).setTags m.selTags bit).activeTags = bit := setTags_activeTags (m.atSlot p c) bit
    have hc : c ≤ n ∧ bit ≠ 0 ∧ Below bit n := by
      rcases hbit with ⟨rfl, rfl⟩ | ⟨rfl, rfl, hne⟩
      · exact ⟨h1, by decide, hone⟩
      · refine ⟨?_, hne, below_and_lowMask _⟩
        unfold WMMonitor.repairSlot
        split <;> omega
    exact ⟨{ p with curTag := c }, rfl, hs, h1, hn, hc.1, by rw [ha]; exact hc.2.1, by rw [ha]; exact hc.2.2⟩

/-- A change of the tag count always leaves the slot describing the active mask. -/
theorem viewing_syncTagSlots (h : m.Viewing p n) {k : Nat} (h1 : 1 ≤ k) (hk : k ≤ 31) :
    ∃ p', (m.syncTagSlots k (lowMask k)).Viewing p' k ∧ p'.Describes (m.syncTagSlots k (lowMask k)).activeTags k := by
  have hcur := h.cur
  have hsel := h.sel
  unfold WMMonitor.syncTagSlots
  simp only [h.pertag, map_some]
  obtain ⟨hs, hc⟩ := resizeForTags_sel h1 hk m.layoutDefaults.nMaster m.layoutDefaults.mFact m.layoutDefaults.gap m.lt
    m.prevLt (p.showBars.head?.getD true) (show p.curTag < p.sel.length by omega)
  generalize p.resizeForTags k m.layoutDefaults.nMaster m.layoutDefaults.mFact m.layoutDefaults.gap m.lt m.prevLt
    (p.showBars.head?.getD true) = q at hs hc
  generalize hm1 : ({ m with pertag := some q, tagSet := fun i => m.tagSet i &&& lowMask k } : WMMonitor) = m1
  have hp1 : m1.pertag = some q := by rw [← hm1]
  have hb1 : Below m1.activeTags k := by rw [← hm1]; exact below_and_lowMask _
  obtain ⟨q', hv⟩ := repairActiveTags_viewing hp1 hs h1 hk hc hb1
  generalize m1.repairActiveTags k (lowMask k) = m2 at hv
  have reload : ∀ (m3 : WMMonitor) (c : Nat), m3.pertag = some { q' with curTag := c } → m3.activeTags = m2.activeTags →
      (if q'.isAllTags m2.activeTags then c = 0 else 1 ≤ c ∧ c ≤ k ∧ m2.activeTags.getLsbD (c - 1) = true) →
      ∃ p', m3.reloadCurrentTagContext.Viewing p' k ∧ p'.Describes m3.reloadCurrentTagContext.activeTags k := by
    intro m3 c hp3 ha hc3
    unfold WMMonitor.reloadCurrentTagContext
    rw [hp3, map_some, getD_some]
    exact viewing_applyPertagContext hp3 hv.sel h1 hk (by rw [ha]; exact hv.active) (by rw [ha]; exact hv.below) (by rw [ha]; exact hc3)
  rcases describeActiveTags_cases hv.pertag with ⟨hall, e⟩ | ⟨hall, e⟩ | ⟨hall, e, hc0, hbit⟩
  · rw [e]
    exact reload (m2.atSlot q' 0) 0 rfl rfl (by rw [hall, if_pos rfl])
  · rw [e]
    have hlow := lowest_slot hk hv.active hv.below
    have hslot : q'.slotForMask m2.activeTags = trailingZeros m2.activeTags + 1 := by
      unfold slotForMask
      rw [hall, if_neg Bool.false_ne_true, clampTag_of_le hv.sel hlow.2.1]
    exact reload (m2.atSlot q' _) _ rfl rfl (by rw [hall, if_neg Bool.false_ne_true, hslot]; exact hlow)
  · rw [e]
    have hcq := hv.cur
    refine reload m2 q'.curTag hv.pertag rfl ?_
    rw [hall, if_neg Bool.false_ne_true]
    exact ⟨by omega, hcq, and_checkedBit_ne_zero.1 hbit⟩

end Describe

/-- A view or a change of the tag count. The flag says whether the slot is known to describe the viewed tags. -/
inductive TagStep : WMMonitor × Bool → WMMonitor × Bool → Prop
  | viewTag {m settled p n mask} (toggle : Bool) (hp : m.pertag = some p) (hn : p.sel.length = n + 1)
      (hb : Below mask n) :
      TagStep (m, settled) ((m.viewTag mask toggle).1, settled || m.viewMask mask toggle != 0)
  | syncTagSlots {m settled n} (h1 : 1 ≤ n) (h31 : n ≤ 31) :
      TagStep (m, settled) (m.syncTagSlots n (lowMask n), true)

/-- After any sequence of views inside the tag mask and changes of the tag count, the active mask names a tag and only tags
there are; and the slot describes it if it did at the start or some operation was not refused. -/
theorem tag_slot_describes_view {m m' : WMMonitor} {p : Pertag} {n : Nat} {settled settled' : Bool}
    (h : m.Viewing p n) (hd : settled = true → p.Describes m.activeTags n)
    (hr : Relation.ReflTransGen TagStep (m, settled) (m', settled')) :
    ∃ p' n', m'.Viewing p' n' ∧ (settled' = true → p'.Describes m'.activeTags n') := by
  have run : ∀ {y : WMMonitor × Bool}, Relation.ReflTransGen TagStep (m, settled) y →
      ∃ p' n', y.1.Viewing p' n' ∧ (y.2 = true → p'.Describes y.1.activeTags n') := by
    intro y hr
    induction hr with
    | refl => exact ⟨p, n, h, hd⟩
    | tail _ st ih =>
      obtain ⟨p1, n1, h1, hd1⟩ := ih
      cases st with
      | viewTag toggle hp hn hb =>
        have hp' := h1.pertag
        rw [hp] at hp'
        cases hp'
        have e := h1.sel
        rw [hn] at e
        cases Nat.succ.inj e
        rcases viewing_viewTag h1 hb toggle with ⟨h0, e⟩ | ⟨h0, p2, h2, hd2⟩
        · refine ⟨_, _, e.symm ▸ h1, fun hs => ?_⟩
          simp only [h0, bne_self_eq_false, Bool.or_false] at hs
          rw [e]
          exact hd1 hs
        · exact ⟨p2, _, h2, fun _ => hd2⟩
      | syncTagSlots h1n h31 =>
        obtain ⟨p2, h2, hd2⟩ := viewing_syncTagSlots h1 h1n h31
        exact ⟨p2, _, h2, fun _ => hd2⟩
  exact run hr

/-- The sample monitor views tags 2 and 3, then all three. -/
theorem tag_slot_describes_view_sample : ∃ p' n',
    ((Sample.tagged.viewTag 6 false).1.viewTag 7 false).1.Viewing p' n' ∧
      (true = true → p'.Describes ((Sample.tagged.viewTag 6 false).1.viewTag 7 false).1.activeTags n') := by
  have start : tagged.Viewing _ 3 :=
    ⟨rfl, rfl, by decide, by decide, by decide, by decide, by decide⟩
  have first : TagStep (tagged, true) ((tagged.viewTag 6 false).1, true) :=
    .viewTag (n := 3) false rfl rfl (by decide)
  have second : TagStep ((tagged.viewTag 6 false).1, true)
      (((tagged.viewTag 6 false).1.viewTag 7 false).1, true) :=
    .viewTag (n := 3) false rfl rfl (by decide)
  refine tag_slot_describes_view start (fun _ => ?_) (.tail (.tail .refl first) second)
  refine ⟨⟨fun h => ?_, fun h => ?_⟩, fun _ => ⟨by decide, by decide, by decide⟩⟩
  · cases h
  · exact absurd (h.2 1 (by decide)) (by decide)

/-- A fresh `Pertag` has slot 0 while one of three tags is viewed, and nothing makes it fit while every view is refused. -/
theorem tag_slot_fresh_pertag :
    let m : WMMonitor := { WMMonitor.new with tagSet := fun _ => 1, pertag := some (Pertag.new true 3) }
    m.activeTags ≠ 0 ∧ Below m.activeTags 3 ∧ Below 0 3 ∧
      ¬ ∃ p', (m.viewTag 0 false).1.pertag = some p' ∧ p'.Describes (m.viewTag 0 false).1.activeTags 3 := by
  refine ⟨by decide, by decide, by decide, ?_⟩
  rintro ⟨p', hp, hd⟩
  have hp : some (Pertag.new true 3) = some p' := hp
  cases hp
  have := (hd.all.1 rfl).2 1 (by decide)
  exact absurd this (by decide)

end Jwm
