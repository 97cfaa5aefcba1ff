/-
Space that panels of other programs claim along the edges of the desktop (`jwm/strut_manager.rs`): what of each
claim falls on a monitor, and the work rectangle that is left of it.
-/
import Jwm.Core.Insets
import Jwm.Layout.Geometry
import Jwm.Wm.FocusDesk

namespace Jwm

open List Option Rect

/-- `backend::api::StrutPartial`: a depth for each edge, and where along the edge it applies. -/
structure StrutPartial where
  left : Nat
  right : Nat
  top : Nat
  bottom : Nat
  leftStartY : Nat
  leftEndY : Nat
  rightStartY : Nat
  rightEndY : Nat
  topStartX : Nat
  topEndX : Nat
  bottomStartX : Nat
  bottomEndX : Nat
deriving DecidableEq

/-- The struts observed, each with the monitor that hosts its panel. -/
abbrev ExternalStruts := KeyMap WindowId (StrutPartial × Option MonitorKey)

structure DesktopBounds where
  left : Int
  top : Int
  right : Int
  bottom : Int

/-! ## One strut on one monitor -/

def spanIntersectsMonitor (start stop : Nat) (monitorStart monitorEnd : Int) (hostsHere : Bool) : Bool :=
  -- the legacy property carries no span: it goes to the monitor of its panel
  if start = 0 ∧ stop = 0 then hostsHere
  else decide ((start : Int) < monitorEnd) && decide ((stop : Int) ≥ monitorStart)

def edgeDepth (advertised : Nat) (distanceToDesktopEdge extent : Int) : Int :=
  let limit := max extent 1
  I32.clampTo (advertised - max distanceToDesktopEdge 0) 0 limit

def clampOpposingEdges (first second extent : Int) : Int × Int :=
  let capacity := I32.saturatingSub (max extent 1) 1
  let first := I32.clampTo first 0 capacity
  let second := I32.clampTo second 0 (I32.saturatingSub capacity first)
  (first, second)

def strutReservationForMonitor (strut : StrutPartial) (hostMatches : Bool) (monitor : Rect) (desktop : DesktopBounds) :
    Insets :=
  let monitorRight := monitor.x + max monitor.w 1
  let monitorBottom := monitor.y + max monitor.h 1
  let horizontalSpan start stop := spanIntersectsMonitor start stop monitor.x monitorRight hostMatches
  let verticalSpan start stop := spanIntersectsMonitor start stop monitor.y monitorBottom hostMatches
  .of
    (if horizontalSpan strut.topStartX strut.topEndX then edgeDepth strut.top (monitor.y - desktop.top) monitor.h else 0)
    (if horizontalSpan strut.bottomStartX strut.bottomEndX then
      edgeDepth strut.bottom (desktop.bottom - monitorBottom) monitor.h else 0)
    (if verticalSpan strut.leftStartY strut.leftEndY then edgeDepth strut.left (monitor.x - desktop.left) monitor.w else 0)
    (if verticalSpan strut.rightStartY strut.rightEndY then
      edgeDepth strut.right (desktop.right - monitorRight) monitor.w else 0)

/-! ## All struts on all monitors -/

/-- `clamp_opposing_edges` on both pairs of edges. -/
def clampEdges (i : Insets) (r : Rect) : Insets :=
  let (top, bottom) := clampOpposingEdges (i .top) (i .bottom) r.h
  let (left, right) := clampOpposingEdges (i .left) (i .right) r.w
  .of top bottom left right

/-- The bounding box of the monitors; of none, the empty one the fold starts from. -/
def desktopBounds (monitors : List Rect) : DesktopBounds :=
  monitors.foldl (fun bounds r =>
      ⟨min bounds.left r.x, min bounds.top r.y, max bounds.right (r.x + max r.w 1), max bounds.bottom (r.y + max r.h 1)⟩)
    ⟨2 ^ 63 - 1, 2 ^ 63 - 1, -2 ^ 63, -2 ^ 63⟩

/-- The deepest claim on each edge of a monitor, before opposite edges are weighed against each other. -/
def strutTotal (struts : ExternalStruts) (mon : MonitorKey) (monitor : Rect) (desktop : DesktopBounds) : Insets :=
  .total (struts.entries.map fun e => strutReservationForMonitor e.2.1 (e.2.2.all (· == mon)) monitor desktop)

namespace WMState

def desktop (s : WMState) : DesktopBounds := desktopBounds (s.monitors.entries.map fun e => e.2.rect)

end WMState

def getStrutReserved (struts : ExternalStruts) (s : WMState) (mon : MonitorKey) : Insets :=
  match s.monitors.get? mon with
  | none => fun _ => 0
  | some monitor =>
    let monitorRect : Rect := ⟨monitor.rect.x, monitor.rect.y, max monitor.rect.w 1, max monitor.rect.h 1⟩
    clampEdges (strutTotal struts mon monitorRect s.desktop) monitorRect

namespace WMMonitor

/-- `w_x`, `w_y`, `w_w`, `w_h`. -/
def work (m : WMMonitor) : Rect := ⟨m.geometry.wX, m.geometry.wY, m.geometry.wW, m.geometry.wH⟩

def reserve (m : WMMonitor) (strut : Insets) : WMMonitor :=
  { m with geometry := { m.geometry with
      wX := I32.saturatingAdd m.geometry.mX (strut .left)
      wY := I32.saturatingAdd m.geometry.mY (strut .top)
      wW := max (I32.saturatingSub (I32.saturatingSub m.geometry.mW (strut .left)) (strut .right)) 1
      wH := max (I32.saturatingSub (I32.saturatingSub m.geometry.mH (strut .top)) (strut .bottom)) 1 } }

end WMMonitor

def applyStrutReservations (struts : ExternalStruts) (s : WMState) : WMState :=
  s.monitorOrder.foldl (fun s mon =>
    let strut := getStrutReserved struts s mon
    { s with monitors := s.monitors.modify mon (·.reserve strut) }) s

/-! ## What is advertised -/

/-- A strut applies at this place along its edge; without a span, everywhere on its host. -/
def Spans (start stop : Nat) (hosted : Bool) (place : Int) : Prop :=
  if start = 0 ∧ stop = 0 then hosted = true else start ≤ place ∧ place ≤ stop

/-- The pixel is in the strip that a strut advertises along an edge of the desktop. -/
def Advertised (strut : StrutPartial) (hosted : Bool) (desktop : DesktopBounds) (px py : Int) : BarEdge → Prop
  | .top => py < desktop.top + strut.top ∧ Spans strut.topStartX strut.topEndX hosted px
  | .bottom => desktop.bottom - strut.bottom ≤ py ∧ Spans strut.bottomStartX strut.bottomEndX hosted px
  | .left => px < desktop.left + strut.left ∧ Spans strut.leftStartY strut.leftEndY hosted py
  | .right => desktop.right - strut.right ≤ px ∧ Spans strut.rightStartY strut.rightEndY hosted py

/-! ## Clamping -/

section Clamp

variable {first second extent : Int} {i : Insets} {r : Rect}

theorem clampOpposingEdges_spec (h1 : 1 ≤ extent) (hmax : extent ≤ I32.max) (first second : Int) :
    0 ≤ (clampOpposingEdges first second extent).1 ∧ 0 ≤ (clampOpposingEdges first second extent).2 ∧
      (clampOpposingEdges first second extent).1 + (clampOpposingEdges first second extent).2 < extent := by
  have hcapacity : I32.saturatingSub (max extent 1) 1 = extent - 1 := by
    rw [Int.max_eq_left h1]
    exact I32.saturatingSub_eq (by omega) Int.one_nonneg hmax (by decide)
  unfold clampOpposingEdges
  rw [hcapacity]
  dsimp only
  obtain ⟨hlow, hhigh⟩ := I32.clampTo_spec (show 0 ≤ extent - 1 by omega) first
  generalize I32.clampTo first 0 (extent - 1) = near at hlow hhigh ⊢
  rw [I32.saturatingSub_eq (by omega) hlow (by omega) (by omega)]
  obtain ⟨hlow', hhigh'⟩ := I32.clampTo_spec (show 0 ≤ extent - 1 - near by omega) second
  exact ⟨hlow, hlow', by omega⟩

theorem I32.clampTo_eq {n low high : Int} (hlow : low ≤ n) (hhigh : n ≤ high) : clampTo n low high = n := by
  unfold clampTo
  rw [if_neg (Int.not_lt.2 hlow), if_neg (Int.not_lt.2 hhigh)]

theorem clampOpposingEdges_eq (hmax : extent ≤ I32.max) (hfirst : 0 ≤ first) (hsecond : 0 ≤ second)
    (hroom : first + second < extent) : clampOpposingEdges first second extent = (first, second) := by
  have hcapacity : I32.saturatingSub (max extent 1) 1 = extent - 1 := by
    rw [Int.max_eq_left (by omega)]
    exact I32.saturatingSub_eq (by omega) Int.one_nonneg hmax (by decide)
  unfold clampOpposingEdges
  rw [hcapacity]
  dsimp only
  rw [I32.clampTo_eq hfirst (by omega), I32.saturatingSub_eq (by omega) hfirst (by omega) (by omega),
    I32.clampTo_eq hsecond (by omega)]

/-- A rectangle of which the clamped depths leave something. -/
structure Spacious (r : Rect) : Prop where
  positive : r.Positive
  width_le : r.w ≤ I32.max
  height_le : r.h ≤ I32.max

theorem clampEdges_spec (h : Spacious r) (i : Insets) :
    (∀ e, 0 ≤ clampEdges i r e) ∧ ∀ e, clampEdges i r e + clampEdges i r e.opposite < r.across e := by
  obtain ⟨ht, hb, hv⟩ := clampOpposingEdges_spec h.positive.height h.height_le (i .top) (i .bottom)
  obtain ⟨hl, hr, hh⟩ := clampOpposingEdges_spec h.positive.width h.width_le (i .left) (i .right)
  refine ⟨fun e => ?_, fun e => ?_⟩
  · cases e
    · exact ht
    · exact hb
    · exact hl
    · exact hr
  · cases e
    · exact hv
    · exact (Int.add_comm _ _).trans_lt hv
    · exact hh
    · exact (Int.add_comm _ _).trans_lt hh

theorem clampEdges_eq (h : Spacious r) (hi : ∀ e, 0 ≤ i e) {e : BarEdge} (hroom : i e + i e.opposite < r.across e) :
    clampEdges i r e = i e := by
  cases e with
  | top => exact congrArg Prod.fst (clampOpposingEdges_eq h.height_le (hi .top) (hi .bottom) hroom)
  | bottom =>
    exact congrArg Prod.snd (clampOpposingEdges_eq h.height_le (hi .top) (hi .bottom) ((Int.add_comm _ _).trans_lt hroom))
  | left => exact congrArg Prod.fst (clampOpposingEdges_eq h.width_le (hi .left) (hi .right) hroom)
  | right =>
    exact congrArg Prod.snd (clampOpposingEdges_eq h.width_le (hi .left) (hi .right) ((Int.add_comm _ _).trans_lt hroom))

end Clamp

/-! ## A strut covers what it advertises -/

theorem spanIntersectsMonitor_of {start stop : Nat} {hosted : Bool} {place low high : Int} (h : Spans start stop hosted place)
    (hlow : low ≤ place) (hhigh : place < high) : spanIntersectsMonitor start stop low high hosted = true := by
  unfold Spans at h
  unfold spanIntersectsMonitor
  split
  · rename_i hlegacy
    rwa [if_pos hlegacy] at h
  · rename_i hspan
    rw [if_neg hspan] at h
    rw [Bool.and_eq_true, decide_eq_true_eq, decide_eq_true_eq]
    omega

/-- A pixel less than the advertised depth from the edge of the desktop is less than the depth on the monitor
from the edge of the monitor. -/
theorem lt_edgeDepth {advertised : Nat} {distance extent inside : Int} (hd : 0 ≤ distance) (hi : inside < extent)
    (h : inside + distance < advertised) : inside + 1 ≤ edgeDepth advertised distance extent := by
  unfold edgeDepth I32.clampTo
  dsimp only
  split
  · omega
  split
  · omega
  · omega

section Covered

variable {monitors : List Rect} {monitor : Rect} {strut : StrutPartial} {hosted : Bool} {px py : Int} {e : BarEdge}

theorem desktopBounds_le (hmem : monitor ∈ monitors) :
    (desktopBounds monitors).left ≤ monitor.x ∧ (desktopBounds monitors).top ≤ monitor.y ∧
      monitor.x + max monitor.w 1 ≤ (desktopBounds monitors).right ∧
      monitor.y + max monitor.h 1 ≤ (desktopBounds monitors).bottom := by
  unfold desktopBounds
  generalize (⟨2 ^ 63 - 1, 2 ^ 63 - 1, -2 ^ 63, -2 ^ 63⟩ : DesktopBounds) = start
  -- the bounds only widen, and they take the monitor in when the fold meets it
  have hwiden : ∀ (l : List Rect) (b : DesktopBounds), let b' := l.foldl (fun bounds r =>
      ⟨min bounds.left r.x, min bounds.top r.y, max bounds.right (r.x + max r.w 1), max bounds.bottom (r.y + max r.h 1)⟩) b
      b'.left ≤ b.left ∧ b'.top ≤ b.top ∧ b.right ≤ b'.right ∧ b.bottom ≤ b'.bottom := by
    intro l
    induction l with
    | nil => exact fun b => ⟨Int.le_refl _, Int.le_refl _, Int.le_refl _, Int.le_refl _⟩
    | cons r l ih =>
      intro b
      obtain ⟨hl, ht, hr, hb⟩ := ih
        ⟨min b.left r.x, min b.top r.y, max b.right (r.x + max r.w 1), max b.bottom (r.y + max r.h 1)⟩
      exact ⟨hl.trans (Int.min_le_left _ _), ht.trans (Int.min_le_left _ _), (Int.le_max_left _ _).trans hr,
        (Int.le_max_left _ _).trans hb⟩
  induction monitors generalizing start with
  | nil => cases hmem
  | cons r l ih =>
    rw [foldl_cons]
    rcases mem_cons.1 hmem with rfl | hmem
    · obtain ⟨hl, ht, hr, hb⟩ := hwiden l ⟨min start.left monitor.x, min start.top monitor.y,
        max start.right (monitor.x + max monitor.w 1), max start.bottom (monitor.y + max monitor.h 1)⟩
      exact ⟨hl.trans (Int.min_le_right _ _), ht.trans (Int.min_le_right _ _), (Int.le_max_right _ _).trans hr,
        (Int.le_max_right _ _).trans hb⟩
    · exact ih hmem _

/-- An advertised pixel of a monitor is within the depth that the strut claims there. -/
theorem advertised_within (hmem : monitor ∈ monitors) (hp : monitor.Positive) (hin : (pixel px py).Within monitor)
    (h : Advertised strut hosted (desktopBounds monitors) px py e) :
    (pixel px py).Within
      (monitor.strip e (strutReservationForMonitor strut hosted monitor (desktopBounds monitors) e)) := by
  obtain ⟨hleft, htop, hright, hbottom⟩ := desktopBounds_le hmem
  obtain ⟨hx, hy, hx', hy'⟩ := hin
  obtain ⟨hw, hh⟩ := hp
  rw [Int.max_eq_left hw] at hright
  rw [Int.max_eq_left hh] at hbottom
  unfold pixel at hx hy hx' hy' ⊢
  dsimp only at hx hy hx' hy'
  unfold strutReservationForMonitor Insets.of
  rw [Int.max_eq_left hw, Int.max_eq_left hh]
  cases e with
  | top =>
    obtain ⟨hdepth, hspan⟩ := h
    rw [if_pos (spanIntersectsMonitor_of hspan hx (by omega))]
    have := @lt_edgeDepth strut.top (monitor.y - (desktopBounds monitors).top) monitor.h (py - monitor.y) (by omega)
      (by omega) (by omega)
    refine ⟨hx, hy, hx', ?_⟩
    unfold strip
    dsimp only
    omega
  | bottom =>
    obtain ⟨hdepth, hspan⟩ := h
    rw [if_pos (spanIntersectsMonitor_of hspan hx (by omega))]
    have := @lt_edgeDepth strut.bottom ((desktopBounds monitors).bottom - (monitor.y + monitor.h)) monitor.h
      (monitor.y + monitor.h - py - 1) (by omega) (by omega) (by omega)
    unfold strip
    refine ⟨hx, ?_, hx', ?_⟩ <;> dsimp only <;> omega
  | left =>
    obtain ⟨hdepth, hspan⟩ := h
    rw [if_pos (spanIntersectsMonitor_of hspan hy (by omega))]
    have := @lt_edgeDepth strut.left (monitor.x - (desktopBounds monitors).left) monitor.w (px - monitor.x) (by omega)
      (by omega) (by omega)
    refine ⟨hx, hy, ?_, hy'⟩
    unfold strip
    dsimp only
    omega
  | right =>
    obtain ⟨hdepth, hspan⟩ := h
    rw [if_pos (spanIntersectsMonitor_of hspan hy (by omega))]
    have := @lt_edgeDepth strut.right ((desktopBounds monitors).right - (monitor.x + monitor.w)) monitor.w
      (monitor.x + monitor.w - px - 1) (by omega) (by omega) (by omega)
    unfold strip
    refine ⟨?_, hy, ?_, hy'⟩ <;> dsimp only <;> omega

end Covered

/-! ## Work rectangles -/

/-- An output whose edges are representable. -/
structure Representable (r : Rect) : Prop where
  positive : r.Positive
  x_ge : I32.min ≤ r.x
  y_ge : I32.min ≤ r.y
  right_le : r.x + r.w ≤ I32.max
  bottom_le : r.y + r.h ≤ I32.max
  width_le : r.w ≤ 65535
  height_le : r.h ≤ 65535

theorem Representable.spacious {r : Rect} (h : Representable r) : Spacious r :=
  ⟨h.positive, h.width_le.trans (by decide), h.height_le.trans (by decide)⟩

section

variable {r : Rect} {i : Insets} (h : Representable r) (hi : ∀ e, 0 ≤ i e) (hroom : ∀ e, i e + i e.opposite < r.across e)
include h hi hroom

theorem saturating_inset :
    I32.saturatingAdd r.x (i .left) = (r.inset i).x ∧ I32.saturatingAdd r.y (i .top) = (r.inset i).y ∧
      I32.saturatingSub (I32.saturatingSub r.w (i .left)) (i .right) = (r.inset i).w ∧
      I32.saturatingSub (I32.saturatingSub r.h (i .top)) (i .bottom) = (r.inset i).h := by
  have hv := hroom .top
  have hh := hroom .left
  have htop := hi .top
  have hbottom := hi .bottom
  have hleft := hi .left
  have hright := hi .right
  obtain ⟨-, hx, hy, hx', hy', hw, hh'⟩ := h
  unfold across BarEdge.opposite at hv hh
  dsimp only at hv hh ⊢
  have hmax : (65535 : Int) ≤ I32.max := by decide
  rw [I32.saturatingSub_eq (by omega) hleft (by omega) (by omega), I32.saturatingSub_eq (by omega) hright (by omega) (by omega),
    I32.saturatingSub_eq (by omega) htop (by omega) (by omega), I32.saturatingSub_eq (by omega) hbottom (by omega) (by omega)]
  unfold I32.saturatingAdd
  rw [I32.clamp_eq (by omega) (by omega), I32.clamp_eq (by omega) (by omega)]
  exact ⟨rfl, rfl, rfl, rfl⟩

theorem Representable.inset : Representable (r.inset i) := by
  obtain ⟨hp, hleft, htop, hright, hbottom⟩ := inset_spec hi hroom
  obtain ⟨-, hx, hy, hx', hy', hw, hh⟩ := h
  exact ⟨hp, by omega, by omega, by omega, by omega, by omega, by omega⟩

end

theorem WMMonitor.reserve_work {m : WMMonitor} (h : Representable m.rect) {i : Insets} (hi : ∀ e, 0 ≤ i e)
    (hroom : ∀ e, i e + i e.opposite < m.rect.across e) : (m.reserve i).work = m.rect.inset i := by
  obtain ⟨hx, hy, hw, hh⟩ := saturating_inset h hi hroom
  obtain ⟨⟨hpw, hph⟩, -⟩ := inset_spec hi hroom
  unfold WMMonitor.rect at hx hy hw hh hpw hph ⊢
  unfold WMMonitor.reserve WMMonitor.work
  rw [hx, hy, hw, hh, Int.max_eq_left hpw, Int.max_eq_left hph]

section Apply

variable {struts struts' : ExternalStruts} {s s' : WMState} {mon : MonitorKey} {m : WMMonitor}

def WMState.outline (s : WMState) : List (MonitorKey × Rect) := s.monitors.entries.map fun e => (e.1, e.2.rect)

theorem getStrutReserved_congr (h : s'.outline = s.outline) (mon : MonitorKey) :
    getStrutReserved struts s' mon = getStrutReserved struts s mon := by
  have hdesktop : s'.desktop = s.desktop := by
    have hrects := congrArg (fun l => l.map Prod.snd) h
    unfold WMState.outline at hrects
    rw [List.map_map, List.map_map] at hrects
    exact congrArg desktopBounds hrects
  have hrect : (s'.monitors.get? mon).map (·.rect) = (s.monitors.get? mon).map (·.rect) := by
    have hfind : ∀ s : WMState, (s.monitors.get? mon).map (·.rect) = (s.outline.find? (·.1 == mon)).map Prod.snd := by
      intro s
      unfold WMState.outline KeyMap.get?
      rw [find?_map, Option.map_map, Option.map_map]
      rfl
    rw [hfind, hfind, h]
  unfold getStrutReserved
  rw [hdesktop]
  cases hm : s.monitors.get? mon with
  | none =>
    rw [hm, map_none, map_eq_none_iff] at hrect
    rw [hrect]
  | some m =>
    rw [hm, map_some] at hrect
    obtain ⟨m', hm', hrect⟩ := map_eq_some_iff.1 hrect
    rw [hm']
    dsimp only
    rw [hrect]

theorem outline_reserve (s : WMState) (mon : MonitorKey) (i : Insets) :
    WMState.outline { s with monitors := s.monitors.modify mon (·.reserve i) } = s.outline := by
  unfold WMState.outline KeyMap.modify
  rw [List.map_map]
  refine map_congr_left fun e _ => ?_
  dsimp only [Function.comp_apply]
  split
  · rfl
  · rfl

/-- Every monitor of the order has its reservations taken off, those that `getStrutReserved` answers at first. -/
theorem applyStrutReservations_get? (struts : ExternalStruts) (s : WMState) (mon : MonitorKey) :
    (applyStrutReservations struts s).monitors.get? mon =
      if mon ∈ s.monitorOrder then (s.monitors.get? mon).map (·.reserve (getStrutReserved struts s mon))
      else s.monitors.get? mon := by
  unfold applyStrutReservations
  generalize s.monitorOrder = order
  suffices hrun : ∀ (order : List MonitorKey) (t : WMState), t.outline = s.outline →
      (t.monitors.get? mon = s.monitors.get? mon ∨
        t.monitors.get? mon = (s.monitors.get? mon).map (·.reserve (getStrutReserved struts s mon))) →
      (order.foldl (fun s mon => { s with monitors := s.monitors.modify mon (·.reserve (getStrutReserved struts s mon)) })
        t).monitors.get? mon =
        if mon ∈ order then (s.monitors.get? mon).map (·.reserve (getStrutReserved struts s mon))
        else t.monitors.get? mon from hrun order s rfl (.inl rfl)
  intro order
  induction order with
  | nil => exact fun t _ _ => (if_neg not_mem_nil).symm
  | cons other order ih =>
    intro t hout ht
    rw [foldl_cons]
    have hstep : ({ t with monitors := t.monitors.modify other (·.reserve (getStrutReserved struts t other)) } :
        WMState).monitors.get? mon = if mon = other then
          (s.monitors.get? mon).map (·.reserve (getStrutReserved struts s mon)) else t.monitors.get? mon := by
      rw [KeyMap.get?_modify]
      split
      · rename_i heq
        subst heq
        rw [getStrutReserved_congr hout]
        rcases ht with ht | ht
        · rw [ht]
        · rw [ht, Option.map_map]
          rfl
      · rfl
    rw [ih _ ((outline_reserve t other _).trans hout)]
    · rw [hstep]
      by_cases hmem : mon ∈ order
      · rw [if_pos hmem, if_pos (mem_cons_of_mem _ hmem)]
      · rw [if_neg hmem]
        by_cases heq : mon = other
        · rw [if_pos heq, if_pos (by rw [heq]; exact mem_cons_self ..)]
        · rw [if_neg heq, if_neg fun h => (mem_cons.1 h).elim heq hmem]
    · rw [hstep]
      split
      · exact .inr rfl
      · exact ht

theorem getStrutReserved_perm (h : struts.entries.Perm struts'.entries) : getStrutReserved struts = getStrutReserved struts' := by
  funext s mon
  unfold getStrutReserved strutTotal
  cases s.monitors.get? mon with
  | none => rfl
  | some m =>
    dsimp only
    rw [Insets.total_perm (h.map _)]

theorem applyStrutReservations_perm (h : struts.entries.Perm struts'.entries) :
    applyStrutReservations struts s = applyStrutReservations struts' s := by
  unfold applyStrutReservations
  rw [getStrutReserved_perm h]

/-- The claims on a monitor before opposite edges are weighed. -/
def WMState.strutTotal (struts : ExternalStruts) (s : WMState) (mon : MonitorKey) (m : WMMonitor) : Insets :=
  Jwm.strutTotal struts mon m.rect s.desktop

theorem getStrutReserved_eq (hm : s.monitors.get? mon = some m) (hp : m.rect.Positive) :
    getStrutReserved struts s mon = clampEdges (s.strutTotal struts mon m) m.rect := by
  unfold getStrutReserved
  rw [hm]
  dsimp only
  rw [Int.max_eq_left hp.width, Int.max_eq_left hp.height]
  rfl

end Apply

end Jwm
