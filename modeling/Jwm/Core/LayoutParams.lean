/-
The commands that tune a monitor's layout (`jwm/layout/state.rs`): master count, master factor and
gap. Each bounds its result, leaves the monitor alone when nothing changes, and writes the live
values back to the current slot. Every slot stays within the limits.
-/
import Jwm.Core.TagSlots

namespace Jwm

/-! ## The commands -/

def maxNMaster : Nat := 32

def maxLayoutGapPx : Int := 100

/-- `u32::saturating_add_signed`. -/
def saturatingAddSigned (a : Nat) (delta : Int) : Nat := min (a + delta).toNat (2 ^ 32 - 1)

def adjustedNMaster (current : Nat) (delta : Int) : Nat :=
  min (saturatingAddSigned (min current maxNMaster) delta) maxNMaster

def adjustedGap (current delta : Int) : Int := max 0 (min maxLayoutGapPx (I32.saturatingAdd current delta))

/-- `(0.05..=0.95).contains`. -/
def mFactInRange (f : Float32) : Bool := decide ((0.05 : Float32) ≤ f) && decide (f ≤ (0.95 : Float32))

namespace WMMonitor

/-- `clear_current_layout_resize`, on the selected monitor. -/
def clearCurrentLayoutResize (m : WMMonitor) : WMMonitor :=
  { m with layoutResizes := m.layoutResizes.remove (m.activeTags, m.lt) }

def setNMaster (m : WMMonitor) (newN : Nat) : WMMonitor :=
  if newN = m.layout.nMaster then m
  else
    let m := m.clearCurrentLayoutResize
    updateCurrentTagLayoutParams { m with layout := { m.layout with nMaster := newN } }

def incnmaster (m : WMMonitor) (i : Int) : WMMonitor := m.setNMaster (adjustedNMaster m.layout.nMaster i)

def setnmaster (m : WMMonitor) (i : Int) : WMMonitor := m.setNMaster (adjustedNMaster 0 i)

/-- `setmfact`; a scrolling monitor resizes its column instead, which is not layout state of a tag. -/
def setmfact (m : WMMonitor) (f : Float32) : WMMonitor :=
  if m.lt = .scrolling then m
  else
    let newMfact := if f < 1.0 then f + m.layout.mFact else f - 1.0
    if !mFactInRange newMfact || newMfact == m.layout.mFact then m
    else
      let m := m.clearCurrentLayoutResize
      updateCurrentTagLayoutParams { m with layout := { m.layout with mFact := newMfact } }

def setgaps (m : WMMonitor) (delta : Int) : WMMonitor :=
  let newGap := adjustedGap m.layout.gap delta
  if newGap = m.layout.gap then m
  else updateCurrentTagLayoutParams { m with layout := { m.layout with gap := newGap } }

end WMMonitor

/-! ## Limits -/

/-- A layout of the catalog; `ANY` is none. -/
def LayoutEnum.inCycle (l : LayoutEnum) : Bool := l != .any

/-- The parameters of every slot are within their limits. -/
structure Pertag.Tuned (p : Pertag) : Prop where
  nMasters : ∀ n ∈ p.nMasters, n ≤ maxNMaster
  mFacts : ∀ f ∈ p.mFacts, mFactInRange f = true
  gaps : ∀ g ∈ p.gaps, 0 ≤ g ∧ g ≤ maxLayoutGapPx
  lts : ∀ l ∈ p.lts, l.inCycle = true
  prevLts : ∀ l ∈ p.prevLts, l.inCycle = true

/-- So are the live ones. -/
structure MonitorLayout.Tuned (l : MonitorLayout) : Prop where
  nMaster : l.nMaster ≤ maxNMaster
  mFact : mFactInRange l.mFact = true
  gap : 0 ≤ l.gap ∧ l.gap ≤ maxLayoutGapPx

/-- So are those a new slot takes. -/
structure LayoutDefaults.Tuned (l : LayoutDefaults) : Prop where
  nMaster : l.nMaster ≤ maxNMaster
  mFact : mFactInRange l.mFact = true
  gap : 0 ≤ l.gap ∧ l.gap ≤ maxLayoutGapPx

structure WMMonitor.Tuned (m : WMMonitor) (p : Pertag) : Prop where
  slots : p.Tuned
  live : m.layout.Tuned
  defaults : m.layoutDefaults.Tuned
  lt : m.lt.inCycle = true
  prevLt : m.prevLt.inCycle = true

section Lists

variable {α : Type} {P : α → Prop} {l : List α} {a : α}

theorem getD_of_forall (h : ∀ x ∈ l, P x) (ha : P a) (i : Nat) : P (l[i]?.getD a) := by
  cases hi : l[i]? with
  | none => exact ha
  | some x => exact h x (List.mem_of_getElem? hi)

theorem forall_mem_set (h : ∀ x ∈ l, P x) (ha : P a) (i : Nat) : ∀ x ∈ l.set i a, P x := by
  intro x hx
  rcases List.mem_or_eq_of_mem_set hx with hx | rfl
  · exact h x hx
  · exact ha

theorem forall_mem_resize (h : ∀ x ∈ l, P x) (ha : P a) (len : Nat) : ∀ x ∈ resize l len a, P x := by
  intro x hx
  rcases List.mem_append.1 hx with hx | hx
  · exact h x (List.mem_of_mem_take hx)
  · rw [List.eq_of_mem_replicate hx]
    exact ha

end Lists

section Tune

variable {m : WMMonitor} {p : Pertag}

theorem Pertag.Tuned.at (h : p.Tuned) (prev cur : Nat) : ({ p with prevTag := prev, curTag := cur } : Pertag).Tuned :=
  ⟨h.nMasters, h.mFacts, h.gaps, h.lts, h.prevLts⟩

theorem Pertag.Tuned.resizeForTags (h : p.Tuned) {d : LayoutDefaults} (hd : d.Tuned) {lt prevLt : LayoutEnum}
    (hlt : lt.inCycle = true) (hprev : prevLt.inCycle = true) (n : Nat) (showBar : Bool) :
    (p.resizeForTags n d.nMaster d.mFact d.gap lt prevLt showBar).Tuned := by
  unfold Pertag.resizeForTags
  simp only
  split
  · exact h
  · exact ⟨forall_mem_resize h.nMasters hd.nMaster _, forall_mem_resize h.mFacts hd.mFact _,
      forall_mem_resize h.gaps hd.gap _, forall_mem_resize h.lts hlt _, forall_mem_resize h.prevLts hprev _⟩

theorem tuned_applyPertagContext (hp : m.pertag = some p) (h : m.Tuned p) (idx : Nat) :
    (m.applyPertagContext idx).Tuned { p with prevTag := p.curTag, curTag := p.clampTag idx } := by
  unfold WMMonitor.applyPertagContext
  simp only [hp]
  refine ⟨h.slots.at _ _, ⟨?_, ?_, ?_⟩, h.defaults, ?_, ?_⟩
  · exact getD_of_forall h.slots.nMasters h.live.nMaster _
  · exact getD_of_forall (P := fun f => mFactInRange f = true) h.slots.mFacts h.live.mFact _
  · exact getD_of_forall (P := fun g => 0 ≤ g ∧ g ≤ maxLayoutGapPx) h.slots.gaps h.live.gap _
  · exact getD_of_forall (P := fun l : LayoutEnum => l.inCycle = true) h.slots.lts h.lt _
  · exact getD_of_forall (P := fun l : LayoutEnum => l.inCycle = true) h.slots.prevLts h.prevLt _

theorem adjustedNMaster_le (current : Nat) (delta : Int) : adjustedNMaster current delta ≤ maxNMaster :=
  Nat.min_le_right _ _

theorem adjustedGap_range (current delta : Int) :
    0 ≤ adjustedGap current delta ∧ adjustedGap current delta ≤ maxLayoutGapPx := by
  unfold adjustedGap maxLayoutGapPx
  omega

end Tune

/-! ## Factors are finite -/

open Float.Model in
theorem isFinite_of_between {a x b : UnpackedFloat} (ha : a.isFinite = true) (hb : b.isFinite = true)
    (hax : a.le x = true) (hxb : x.le b = true) : x.isFinite = true := by
  cases x with
  | notANumber => cases b <;> exact absurd hxb Bool.false_ne_true
  | infinity s =>
    cases s with
    | positive =>
      cases b with
      | notANumber | infinity _ => exact absurd hb Bool.false_ne_true
      | zero _ => exact absurd hxb Bool.false_ne_true
      | finite s _ _ _ => cases s <;> exact absurd hxb Bool.false_ne_true
    | negative =>
      cases a with
      | notANumber | infinity _ => exact absurd ha Bool.false_ne_true
      | zero _ => exact absurd hax Bool.false_ne_true
      | finite s _ _ _ => cases s <;> exact absurd hax Bool.false_ne_true
  | zero s | finite s m e hm => rfl

theorem isFinite_of_mFactInRange {f : Float32} (h : mFactInRange f = true) : f.isFinite = true := by
  unfold mFactInRange at h
  rw [Bool.and_eq_true] at h
  have hlo : (0.05 : Float32).toModel.unpack.le f.toModel.unpack = true :=
    of_decide_eq_true (p := (0.05 : Float32).toModel ≤ f.toModel) (of_decide_eq_true h.1)
  have hhi : f.toModel.unpack.le (0.95 : Float32).toModel.unpack = true :=
    of_decide_eq_true (p := f.toModel ≤ (0.95 : Float32).toModel) (of_decide_eq_true h.2)
  exact isFinite_of_between (by decide) (by decide) hlo hhi

end Jwm
