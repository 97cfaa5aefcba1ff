/-
Maximize and the user's own geometry over whole histories: any interleaving of axis changes (`plan_maximize`, each plan
committed) and of edits to the axes that are free.
-/
import Jwm.Core.Maximize

namespace Jwm

/-! ## Histories -/

/-- The maximize geometry of one client: `maximized_axes`, `maximize_restore_rect` and the content
rectangle of its resting slot. -/
structure MaximizeGeometry where
  axes : MaximizeAxes
  restore : Option Rect
  resting : Rect
deriving DecidableEq

inductive MaximizeStep where
  /-- `plan_maximize` to the next axis pair, committed. -/
  | plan (next : MaximizeAxes)
  /-- The user moves or resizes the window on the axes that are not maximized. -/
  | edit (rect : Rect)
deriving DecidableEq

namespace MaximizeGeometry

variable (area : Rect) (borderW : Int)

def step (g : MaximizeGeometry) : MaximizeStep → MaximizeGeometry
  | .plan next =>
    let plan := planMaximize { current := g.axes, restore := g.restore, restoreHint := none,
                               resting := g.resting, area, borderW } next
    { axes := plan.axes, restore := plan.restoreRect, resting := plan.restingRect }
  | .edit rect => { g with resting := mirrorFreeAxes g.resting rect g.axes }

def run (g : MaximizeGeometry) (steps : List MaximizeStep) : MaximizeGeometry := steps.foldl (step area borderW) g

/-- A client that is not maximized and rests in `rect`. -/
def unmaximized (rect : Rect) : MaximizeGeometry := { axes := .none, restore := none, resting := rect }

end MaximizeGeometry

/-- What the user last put on each axis while it was free, next to the current axes. `enter` is
what entering maximize from no axis at all makes of the rectangle. -/
def userStep (enter : Rect → Rect) : MaximizeAxes × Rect → MaximizeStep → MaximizeAxes × Rect
  | (axes, free), .plan next => (next, if axes = .none ∧ next ≠ .none then enter free else free)
  | (axes, free), .edit rect => (axes, mirrorFreeAxes free rect axes)

def userRun (enter : Rect → Rect) (rect : Rect) (steps : List MaximizeStep) : MaximizeAxes × Rect :=
  steps.foldl (userStep enter) (.none, rect)

/-! ## Components -/

section

variable (r l : Rect) (a : MaximizeAxes)

@[simp] theorem mirrorFreeAxes_x : (mirrorFreeAxes r l a).x = if a.horz then r.x else l.x := by
  rcases a with ⟨_ | _, _ | _⟩ <;> rfl

@[simp] theorem mirrorFreeAxes_w : (mirrorFreeAxes r l a).w = if a.horz then r.w else l.w := by
  rcases a with ⟨_ | _, _ | _⟩ <;> rfl

@[simp] theorem mirrorFreeAxes_y : (mirrorFreeAxes r l a).y = if a.vert then r.y else l.y := by
  rcases a with ⟨_ | _, _ | _⟩ <;> rfl

@[simp] theorem mirrorFreeAxes_h : (mirrorFreeAxes r l a).h = if a.vert then r.h else l.h := by
  rcases a with ⟨_ | _, _ | _⟩ <;> rfl

end

theorem mirrorFreeAxes_target (r area : Rect) (a : MaximizeAxes) (bw : Int) :
    mirrorFreeAxes r (maximizeTarget r area a bw) a = r := by
  rcases a with ⟨_ | _, _ | _⟩ <;> rfl

theorem mirrorFreeAxes_edit (r live rect : Rect) (a : MaximizeAxes) :
    mirrorFreeAxes r (mirrorFreeAxes live rect a) a = mirrorFreeAxes (mirrorFreeAxes r live a) rect a := by
  rcases a with ⟨_ | _, _ | _⟩ <;> rfl

/-! ## The invariant -/

/-- The resting rectangle fills the work area on every maximized axis. -/
structure FillsArea (area : Rect) (bw : Int) (axes : MaximizeAxes) (rect : Rect) : Prop where
  horz : axes.horz = true → rect.x = area.x ∧ rect.w = innerExtent area.w bw
  vert : axes.vert = true → rect.y = area.y ∧ rect.h = innerExtent area.h bw

/-- `g` carries the user's rectangle `free`: as it is while no axis is set, and split between the
restore rectangle and the live one otherwise. -/
structure Carries (area : Rect) (bw : Int) (g : MaximizeGeometry) (u : MaximizeAxes × Rect) : Prop where
  axes : g.axes = u.1
  recorded : g.restore.isSome = g.axes.any
  fills : FillsArea area bw g.axes g.resting
  settled : g.axes = .none → g.resting = u.2
  mirror : ∀ r, g.restore = some r → mirrorFreeAxes r g.resting g.axes = u.2

theorem fillsArea_target (r area : Rect) (a : MaximizeAxes) (bw : Int) :
    FillsArea area bw a (maximizeTarget r area a bw) := by
  rcases a with ⟨_ | _, _ | _⟩ <;> exact ⟨fun h => by simp_all [maximizeTarget], fun h => by simp_all [maximizeTarget]⟩

theorem carries_unmaximized (area : Rect) (bw : Int) (rect : Rect) :
    Carries area bw (.unmaximized rect) (.none, rect) :=
  ⟨rfl, rfl, ⟨fun h => (by cases h), fun h => (by cases h)⟩, fun _ => rfl, fun _ h => (by cases h)⟩

variable {bw : Int}

variable {next : MaximizeAxes} {g : MaximizeGeometry}

/-- Committing a plan whose base is the user's rectangle `free`. -/
theorem carries_plan {area : Rect} {free : Rect} : Carries area bw
      (if next.any then { axes := next, restore := some free, resting := maximizeTarget free area next bw }
        else { axes := .none, restore := none, resting := free })
      (next, free) := by
  by_cases hn : next.any = true
  · rw [if_pos hn]
    refine ⟨rfl, by simp [hn], fillsArea_target _ _ _ _, fun h => ?_, fun r hr => ?_⟩
    · simp only at h; rw [h] at hn; cases hn
    · cases hr; exact mirrorFreeAxes_target _ _ _ _
  · have hz : next = .none := MaximizeAxes.any_eq_false.1 (by simpa using hn)
    subst hz
    exact carries_unmaximized area bw free

theorem step_plan_eq {area : Rect} (h : next ≠ g.axes) : g.step area bw (.plan next) =
      let base := if g.axes.any then (g.restore.map fun r => mirrorFreeAxes r g.resting g.axes).getD
          (initialRestoreRect g.resting area bw) else initialRestoreRect g.resting area bw
      if next.any then { axes := next, restore := some base, resting := maximizeTarget base area next bw }
      else { axes := .none, restore := none, resting := base } := by
  simp only [MaximizeGeometry.step, planMaximize, if_neg h, Option.getD_none]
  split <;> rfl

theorem carries_step {area : Rect} {u : MaximizeAxes × Rect} (h : Carries area bw g u) (st : MaximizeStep) :
    Carries area bw (g.step area bw st) (userStep (initialRestoreRect · area bw) u st) := by
  obtain ⟨axes, free⟩ := u
  obtain ⟨rfl, hs, hf, hn, hm⟩ := h
  simp only at hn hm
  cases st with
  | plan next =>
    by_cases hc : next = g.axes
    · have hu : ¬ (g.axes = .none ∧ next ≠ .none) := fun hh => hh.2 (hc.trans hh.1)
      simp only [MaximizeGeometry.step, planMaximize, if_pos hc, userStep, if_neg hu]
      exact ⟨hc.symm, hs, hf, hn, hm⟩
    · rw [step_plan_eq hc]
      by_cases ha : g.axes.any = true
      · obtain ⟨r, hr⟩ := Option.isSome_iff_exists.1 (hs.trans ha)
        have hu : ¬ (g.axes = .none ∧ next ≠ .none) := by
          rintro ⟨h0, -⟩; rw [h0] at ha; cases ha
        simp only [if_pos ha, hr, Option.map_some, Option.getD_some, hm r hr, userStep, if_neg hu]
        exact carries_plan
      · have h0 : g.axes = .none := MaximizeAxes.any_eq_false.1 (by simpa using ha)
        have hu : g.axes = .none ∧ next ≠ .none := ⟨h0, fun hh => hc (hh.trans h0.symm)⟩
        simp only [if_neg ha, hn h0, userStep, if_pos hu]
        exact carries_plan
  | edit rect =>
    refine ⟨rfl, hs, ⟨fun hh => ?_, fun hv => ?_⟩, fun h0 => ?_, fun r hr => ?_⟩
    · simpa [MaximizeGeometry.step, show g.axes.horz = true from hh] using hf.horz hh
    · simpa [MaximizeGeometry.step, show g.axes.vert = true from hv] using hf.vert hv
    · have h0' : g.axes = .none := h0
      simp only [MaximizeGeometry.step, userStep, hn h0']
    · simp only [MaximizeGeometry.step, userStep]
      rw [mirrorFreeAxes_edit, hm r hr]

theorem carries_run {area : Rect} : ∀ (steps : List MaximizeStep) {g : MaximizeGeometry}
    {u : MaximizeAxes × Rect}, Carries area bw g u →
    Carries area bw (g.run area bw steps) (steps.foldl (userStep (initialRestoreRect · area bw)) u)
  | [], _, _, h => h
  | st :: steps, _, _, h => carries_run steps (carries_step h st)

/-- Over every history from an unmaximized client resting in `rect`: a restore rectangle is recorded exactly while an axis is
set, the resting rectangle fills the work area on each maximized axis, and with no axis left it is what the user last put on
each free axis, up to `initialRestoreRect`. -/
theorem maximize_history_restores (area : Rect) (bw : Int) (rect : Rect) (steps : List MaximizeStep) :
    let g := (MaximizeGeometry.unmaximized rect).run area bw steps
    g.restore.isSome = g.axes.any ∧ FillsArea area bw g.axes g.resting ∧
      (g.axes = .none → g.resting = (userRun (initialRestoreRect · area bw) rect steps).2) := by
  have h := carries_run steps (carries_unmaximized area bw rect)
  exact ⟨h.recorded, h.fills, h.settled⟩

/-- A window resized to nearly the whole area does not come back to that size from maximize. -/
theorem maximize_history_near_full_edit :
    let area : Rect := ⟨0, 0, 1920, 1080⟩
    let rect : Rect := ⟨100, 100, 800, 600⟩
    let steps := [.edit ⟨0, 0, 1900, 1060⟩, .plan .full, .plan .none]
    initialRestoreRect rect area 0 = rect ∧
      ((MaximizeGeometry.unmaximized rect).run area 0 steps).axes = .none ∧
      ((MaximizeGeometry.unmaximized rect).run area 0 steps).resting ≠ (userRun id rect steps).2 := by
  decide

end Jwm
