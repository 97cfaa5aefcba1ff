/-
The strut of the status bar (`jwm/bar_geometry.rs`): twelve words that describe root edges, read back as the strut of any
other panel.
-/
import Jwm.Wm.WorkArea
import Mathlib.Data.List.Pairwise

namespace Jwm

open I32 Insets

/-! ## The property -/

/-- The twelve words of `_NET_WM_STRUT_PARTIAL`: four depths, then where each edge's strip starts and ends. -/
def barStrut (bar : BarGeometry) (output root : Rect) : List Nat :=
  let values := List.replicate 12 0
  let x := output.x - root.x
  let y := output.y - root.y
  let right := x + max output.w 1
  let bottom := y + max output.h 1
  let rootWidth := max root.w 1
  let rootHeight := max root.h 1
  let depth := (max bar.reservation 0).toNat
  let horizontal := ((max x 0).toNat, (clampTo (right - 1) 0 (rootWidth - 1)).toNat)
  let vertical := ((max y 0).toNat, (clampTo (bottom - 1) 0 (rootHeight - 1)).toNat)
  match bar.edge with
  | .top => if y = 0 then ((values.set 2 depth).set 8 horizontal.1).set 9 horizontal.2 else values
  | .bottom => if bottom = rootHeight then ((values.set 3 depth).set 10 horizontal.1).set 11 horizontal.2 else values
  | .left => if x = 0 then ((values.set 0 depth).set 4 vertical.1).set 5 vertical.2 else values
  | .right => if right = rootWidth then ((values.set 1 depth).set 6 vertical.1).set 7 vertical.2 else values

def parseStrutPartial (values : List Nat) : Option StrutPartial :=
  if values.length < 12 then none
  else some {
    left := values.getD 0 0
    right := values.getD 1 0
    top := values.getD 2 0
    bottom := values.getD 3 0
    leftStartY := values.getD 4 0
    leftEndY := values.getD 5 0
    rightStartY := values.getD 6 0
    rightEndY := values.getD 7 0
    topStartX := values.getD 8 0
    topEndX := values.getD 9 0
    bottomStartX := values.getD 10 0
    bottomEndX := values.getD 11 0 }

namespace StrutPartial

def zero : StrutPartial := ⟨0, 0, 0, 0, 0, 0, 0, 0, 0, 0, 0, 0⟩

def along (edge : BarEdge) (depth start stop : Nat) : StrutPartial :=
  match edge with
  | .top => { zero with top := depth, topStartX := start, topEndX := stop }
  | .bottom => { zero with bottom := depth, bottomStartX := start, bottomEndX := stop }
  | .left => { zero with left := depth, leftStartY := start, leftEndY := stop }
  | .right => { zero with right := depth, rightStartY := start, rightEndY := stop }

end StrutPartial

open StrutPartial

/-! ## A strip on a monitor -/

namespace Rect

def alongEdge (r : Rect) : BarEdge → Int × Int
  | .top | .bottom => (r.x, r.x + r.w)
  | .left | .right => (r.y, r.y + r.h)

def fromDesktop (r : Rect) (desktop : DesktopBounds) : BarEdge → Int
  | .top => r.y - desktop.top
  | .bottom => desktop.bottom - (r.y + r.h)
  | .left => r.x - desktop.left
  | .right => desktop.right - (r.x + r.w)

end Rect

section

variable {monitor : Rect} {desktop : DesktopBounds} {hosted : Bool}

theorem edgeDepth_zero (distance extent : Int) : edgeDepth 0 distance extent = 0 := by
  unfold edgeDepth clampTo
  dsimp only
  split
  · rfl
  · split <;> omega

theorem reservation_zero (hosted : Bool) (monitor : Rect) (desktop : DesktopBounds) :
    strutReservationForMonitor .zero hosted monitor desktop = fun _ => 0 := by
  funext e
  unfold strutReservationForMonitor zero of
  cases e
  all_goals
    dsimp only
    rw [edgeDepth_zero, ite_self]

theorem reservation_along (hw : 1 ≤ monitor.w) (hh : 1 ≤ monitor.h) (edge : BarEdge) (depth start stop : Nat) :
    strutReservationForMonitor (.along edge depth start stop) hosted monitor desktop = single edge
      (if spanIntersectsMonitor start stop (monitor.alongEdge edge).1 (monitor.alongEdge edge).2 hosted then
        edgeDepth depth (monitor.fromDesktop desktop edge) (monitor.across edge) else 0) := by
  funext e
  unfold strutReservationForMonitor of single
  rw [Int.max_eq_left hw, Int.max_eq_left hh]
  rcases eq_or_ne e edge with rfl | hne
  · rw [if_pos rfl]
    cases e <;> rfl
  · rw [if_neg hne]
    cases edge <;> cases e <;> simp [along, zero, edgeDepth_zero] at hne ⊢

end

/-! ## The bar -/

def OnRoot (output root : Rect) : BarEdge → Prop
  | .top => output.y = root.y
  | .bottom => output.y + output.h = root.y + root.h
  | .left => output.x = root.x
  | .right => output.x + output.w = root.x + root.w

instance (output root : Rect) (edge : BarEdge) : Decidable (OnRoot output root edge) := by
  cases edge
  all_goals
    unfold OnRoot
    infer_instance

instance : Std.Symm Rect.Apart := ⟨fun _ _ h => h.symm⟩

/-- The outputs of a desktop: apart from one another, none a line, together as wide and high as the root, whose origin is the
corner of the screen. -/
structure Outputs (outputs : List Rect) (root : Rect) : Prop where
  apart : outputs.Pairwise Rect.Apart
  sides : ∀ r ∈ outputs, 2 ≤ r.w ∧ 2 ≤ r.h
  origin : root.x = 0 ∧ root.y = 0
  bounds : desktopBounds outputs = ⟨0, 0, root.w, root.h⟩
  /-- The root is an `i32` rectangle. -/
  words : root.w ≤ max ∧ root.h ≤ max

section

variable {output root : Rect}

theorem BarGeometry.new_reservation (hw : 2 ≤ output.w ∧ output.w ≤ max) (hh : 2 ≤ output.h ∧ output.h ≤ max)
    (edge : BarEdge) (thickness padding : Int) :
    ∃ bar, BarGeometry.new output edge thickness padding = some bar ∧ bar.edge = edge ∧ 1 ≤ bar.reservation ∧
      bar.reservation < output.across edge := by
  obtain ⟨pad, thick, hpad, -, -, hthick, -, hnew⟩ :=
    BarGeometry.new_eq ⟨by omega, hw.2⟩ ⟨by omega, hh.2⟩ edge thickness padding
  have hacross : 2 ≤ output.across edge := by
    cases edge
    · exact hh.1
    · exact hh.1
    · exact hw.1
    · exact hw.1
  refine ⟨_, hnew, rfl, ?_, ?_⟩
  all_goals
    dsimp only
    omega

/-- What is advertised on the root's boundary is one strip; elsewhere nothing is. -/
theorem barStrut_along (hroot : root.x = 0 ∧ root.y = 0) (hin : output.Within root) (hpos : output.Positive) (bar : BarGeometry) :
    parseStrutPartial (barStrut bar output root) = some (if OnRoot output root bar.edge then
      .along bar.edge bar.reservation.toNat (output.alongEdge bar.edge).1.toNat ((output.alongEdge bar.edge).2 - 1).toNat
      else .zero) := by
  obtain ⟨hx, hy, hright, hbottom⟩ := hin
  obtain ⟨hw, hh⟩ := hpos
  obtain ⟨hrx, hry⟩ := hroot
  rw [hrx] at hx hright
  rw [hry] at hy hbottom
  have hdepth : (max bar.reservation 0).toNat = bar.reservation.toNat := by omega
  unfold barStrut
  dsimp only
  rw [hrx, hry, Int.sub_zero, Int.sub_zero, Int.max_eq_left hw, Int.max_eq_left hh, Int.max_eq_left (show 1 ≤ root.w by omega),
    Int.max_eq_left (show 1 ≤ root.h by omega), Int.max_eq_left hx, Int.max_eq_left hy,
    clampTo_eq (show 0 ≤ output.x + output.w - 1 by omega) (by omega),
    clampTo_eq (show 0 ≤ output.y + output.h - 1 by omega) (by omega), hdepth]
  have hparse : ∀ (here : Prop) [Decidable here] (strip : List Nat) (strut : StrutPartial),
      parseStrutPartial strip = some strut →
        parseStrutPartial (if here then strip else List.replicate 12 0) = some (if here then strut else .zero) := by
    intro here _ strip strut hstrip
    split
    · exact hstrip
    · rfl
  cases bar.edge with
  | top | bottom =>
    refine (hparse _ _ _ rfl).trans ?_
    simp [OnRoot, hry, along, zero, Rect.alongEdge]
  | left | right =>
    refine (hparse _ _ _ rfl).trans ?_
    simp [OnRoot, hrx, along, zero, Rect.alongEdge]

theorem edgeDepth_beyond {advertised : Nat} {distance extent : Int} (h : (advertised : Int) ≤ distance) :
    edgeDepth advertised distance extent = 0 := by
  unfold edgeDepth clampTo
  dsimp only
  split
  · rfl
  · split <;> omega

theorem edgeDepth_inside {advertised : Nat} {extent : Int} (h : (advertised : Int) ≤ extent) : edgeDepth advertised 0 extent =
    advertised := by
  unfold edgeDepth clampTo
  dsimp only
  split
  · omega
  · split <;> omega

theorem spanIntersectsMonitor_iff {start stop low high : Int} {hosted : Bool} (hstart : 0 ≤ start) (hstop : start + 2 ≤ stop) :
    spanIntersectsMonitor start.toNat (stop - 1).toNat low high hosted = true ↔ start < high ∧ low < stop := by
  unfold spanIntersectsMonitor
  rw [if_neg (by omega), Bool.and_eq_true, decide_eq_true_eq, decide_eq_true_eq]
  omega

end

section

variable {outputs : List Rect} {root output other : Rect} {bar : BarGeometry}

namespace Outputs

section

variable (h : Outputs outputs root) (hmem : output ∈ outputs)
include h hmem

theorem within : output.Within root := by
  obtain ⟨hleft, htop, hright, hbottom⟩ := desktopBounds_le hmem
  obtain ⟨hw, hh⟩ := h.sides output hmem
  obtain ⟨hx, hy⟩ := h.origin
  rw [h.bounds] at hleft htop hright hbottom
  dsimp only at hleft htop hright hbottom
  constructor <;> omega

/-- The span of a strip along the output is that of the output, as long as it is. -/
theorem alongEdge (edge : BarEdge) :
    0 ≤ (output.alongEdge edge).1 ∧ (output.alongEdge edge).1 + 2 ≤ (output.alongEdge edge).2 := by
  obtain ⟨hleft, htop, -, -⟩ := h.within hmem
  obtain ⟨hw, hh⟩ := h.sides output hmem
  obtain ⟨hx, hy⟩ := h.origin
  cases edge
  all_goals
    unfold Rect.alongEdge
    dsimp only
    omega

theorem reserves (hon : OnRoot output root bar.edge) (hone : 1 ≤ bar.reservation) (hlt : bar.reservation < output.across bar.edge)
    (hosted : Bool) :
    strutReservationForMonitor (.along bar.edge bar.reservation.toNat (output.alongEdge bar.edge).1.toNat
      ((output.alongEdge bar.edge).2 - 1).toNat) hosted output (desktopBounds outputs) = single bar.edge bar.reservation := by
  obtain ⟨hw, hh⟩ := h.sides output hmem
  obtain ⟨hx, hy⟩ := h.origin
  obtain ⟨hstart, hstop⟩ := h.alongEdge hmem bar.edge
  have hdistance : output.fromDesktop (desktopBounds outputs) bar.edge = 0 := by
    rw [h.bounds]
    unfold OnRoot at hon
    unfold Rect.fromDesktop
    cases hedge : bar.edge
    all_goals
      rw [hedge] at hon
      dsimp only at hon ⊢
      omega
  rw [reservation_along (by omega) (by omega), if_pos ((spanIntersectsMonitor_iff hstart hstop).2 (by omega)), hdistance,
    edgeDepth_inside (by omega), Int.toNat_of_nonneg (by omega)]

/-- An output that shares places of the span is behind the whole of the bar's output. -/
theorem spares (hother : other ∈ outputs) (hne : other ≠ output) (hon : OnRoot output root bar.edge)
    (hlt : bar.reservation < output.across bar.edge) (hosted : Bool) :
    strutReservationForMonitor (.along bar.edge bar.reservation.toNat (output.alongEdge bar.edge).1.toNat
      ((output.alongEdge bar.edge).2 - 1).toNat) hosted other (desktopBounds outputs) = fun _ => 0 := by
  obtain ⟨hw, hh⟩ := h.sides output hmem
  obtain ⟨hw', hh'⟩ := h.sides other hother
  obtain ⟨hx, hy⟩ := h.origin
  obtain ⟨hstart, hstop⟩ := h.alongEdge hmem bar.edge
  obtain ⟨hleft, htop, hright, hbottom⟩ := h.within hother
  have hapart : Rect.Apart output other := h.apart.forall hmem hother hne.symm
  rw [reservation_along (by omega) (by omega)]
  have hzero : ∀ depth, depth = 0 → single bar.edge depth = fun _ => 0 := by
    rintro _ rfl
    funext e
    exact ite_self 0
  refine hzero _ ?_
  split
  · rename_i hspan
    rw [spanIntersectsMonitor_iff hstart hstop] at hspan
    refine edgeDepth_beyond ?_
    rw [h.bounds]
    unfold Rect.Apart at hapart
    unfold OnRoot at hon
    cases hedge : bar.edge
    all_goals
      rw [hedge] at hon hspan hlt
      dsimp only [Rect.alongEdge, Rect.across, Rect.fromDesktop] at hon hspan hlt ⊢
      omega
  · rfl

end

end Outputs

/-- Read back as any panel's strut, the bar's reserves its own depth on its own output and edge, where that edge is one of the root,
and nothing else anywhere. -/
theorem bar_strut_reserves_own_strip (h : Outputs outputs root) (hmem : output ∈ outputs) (edge : BarEdge) (thickness padding : Int) :
    ∃ bar strut, BarGeometry.new output edge thickness padding = some bar ∧
      parseStrutPartial (barStrut bar output root) = some strut ∧ 1 ≤ bar.reservation ∧
      (∀ hosted, strutReservationForMonitor strut hosted output (desktopBounds outputs) =
        Insets.single edge (if OnRoot output root edge then bar.reservation else 0)) ∧
      ∀ other ∈ outputs, other ≠ output → ∀ hosted,
        strutReservationForMonitor strut hosted other (desktopBounds outputs) = fun _ => 0 := by
  obtain ⟨hw, hh⟩ := h.sides output hmem
  obtain ⟨hx, hy⟩ := h.origin
  have hin := h.within hmem
  obtain ⟨hleft, htop, hright, hbottom⟩ := hin
  obtain ⟨bar, hnew, rfl, hone, hlt⟩ := BarGeometry.new_reservation ⟨hw, by have := h.words.1; omega⟩ ⟨hh, by have := h.words.2; omega⟩
    edge thickness padding
  refine ⟨bar, _, hnew, barStrut_along h.origin (h.within hmem) ⟨by omega, by omega⟩ bar, hone, ?_, ?_⟩
  · intro hosted
    by_cases hon : OnRoot output root bar.edge
    · rw [if_pos hon, if_pos hon]
      exact h.reserves hmem hon hone hlt hosted
    · rw [if_neg hon, if_neg hon, reservation_zero]
      funext e
      exact (ite_self 0).symm
  · intro other hother hne hosted
    by_cases hon : OnRoot output root bar.edge
    · rw [if_pos hon]
      exact h.spares hmem hother hne hon hlt hosted
    · rw [if_neg hon, reservation_zero]

end

/-- Two outputs of different heights side by side. -/
theorem bar_strut_reserves_own_strip_beside :
    ∃ bar strut, BarGeometry.new ⟨0, 0, 1920, 1080⟩ .bottom 42 5 = some bar ∧
      parseStrutPartial (barStrut bar ⟨0, 0, 1920, 1080⟩ ⟨0, 0, 3200, 1080⟩) = some strut ∧ 1 ≤ bar.reservation ∧
      (∀ hosted, strutReservationForMonitor strut hosted ⟨0, 0, 1920, 1080⟩ (desktopBounds [⟨0, 0, 1920, 1080⟩, ⟨1920, 0, 1280, 800⟩]) =
        Insets.single .bottom (if OnRoot ⟨0, 0, 1920, 1080⟩ ⟨0, 0, 3200, 1080⟩ .bottom then bar.reservation else 0)) ∧
      ∀ other ∈ [(⟨0, 0, 1920, 1080⟩ : Rect), ⟨1920, 0, 1280, 800⟩], other ≠ ⟨0, 0, 1920, 1080⟩ → ∀ hosted,
        strutReservationForMonitor strut hosted other (desktopBounds [⟨0, 0, 1920, 1080⟩, ⟨1920, 0, 1280, 800⟩]) = fun _ => 0 :=
  bar_strut_reserves_own_strip ⟨by decide, by decide, ⟨rfl, rfl⟩, rfl, by decide⟩ (by decide) .bottom 42 5

end Jwm
