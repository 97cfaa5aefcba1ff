/-
`applysizehints` with both of its boundaries (`jwm/constraints.rs`): the screen while the user drags, else the window's
monitor.
-/
import Jwm.Core.SizeHints
import Jwm.Data.Check
import Jwm.Wm.Hiding

namespace Jwm

open Option

/-! ## The rectangle a window gets -/

theorem Rect.sized_self {r : Rect} {w h : Int} (hw : r.w = w) (hh : r.h = h) : ({ r with w := w, h := h } : Rect) = r := by
  subst hw hh
  rfl

/-- `constrain_to_screen_wide`. -/
def constrainToScreen (x y totalWidth totalHeight screenW screenH : Int) : Int × Int :=
  (constrainAxis x 0 screenW totalWidth, constrainAxis y 0 screenH totalHeight)

structure HintEnv where
  /-- `behavior().resize_hints`. -/
  resizeHints : Bool
  sW : Int
  sH : Int
  fetchNormalHints : ClientKey → Except String (Option SizeHints)

def WMState.knownClient (s : WMState) (key : ClientKey) : Except String WMClient :=
  (s.clients.get? key).elim (.error "Client not found") .ok

namespace HintEnv

variable (env : HintEnv)

/-- Where the boundary puts a rectangle of `client`: its size stays. -/
def boundedRect (s : WMState) (client : WMClient) (interact : Bool) (r : Rect) : Rect :=
  let totalWidth := r.w + 2 * client.geometry.borderW
  let totalHeight := r.h + 2 * client.geometry.borderW
  if interact then
    let position := constrainToScreen r.x r.y totalWidth totalHeight env.sW env.sH
    { r with x := position.1, y := position.2 }
  else
    match client.mon.bind s.monitors.get? with
    | some monitor =>
      let position := constrainToMonitor r.x r.y totalWidth totalHeight monitor.geometry
      { r with x := position.1, y := position.2 }
    | none => r

def applyBoundaryConstraints (key : ClientKey) (interact : Bool) (r : Rect) (s : WMState) : Except String Rect := do
  let client ← s.knownClient key
  return env.boundedRect s client interact r

def updatesizehints (key : ClientKey) (s : WMState) : Except String WMState := do
  let client ← s.knownClient key
  if client.sizeHints.hintsValid then return s
  let hints ← env.fetchNormalHints key
  return s.modifyClient key (refreshClientSizeHints · hints)

def ensureSizeHintsValid (key : ClientKey) (s : WMState) : Except String WMState :=
  if (s.clients.get? key).any (·.sizeHints.hintsValid) then .ok s else env.updatesizehints key s

/-- Whether the hints change the size, and the size they make of it. -/
def applySizeHintsConstraints (key : ClientKey) (r : Rect) (s : WMState) : Except String (Bool × Rect × WMState) := do
  let isFloating := (s.clients.get? key).any (·.state.isFloating)
  if !env.resizeHints && !isFloating then return (false, r, s)
  let s ← env.ensureSizeHintsValid key s
  let client ← s.knownClient key
  let size := calculateConstrainedSize r.w r.h client.sizeHints
  return (r.w != size.1 || r.h != size.2, { r with w := size.1, h := size.2 }, s)

/-- Whether the client has to be configured, and its rectangle. A caller drops the rectangle of a call that fails. -/
def applysizehints (key : ClientKey) (interact : Bool) (r : Rect) (s : WMState) : Except String (Bool × Rect × WMState) := do
  let r := { r with w := max r.w 1, h := max r.h 1 }
  let original := (← s.knownClient key).geometry.rect
  let r ← env.applyBoundaryConstraints key interact r s
  let (geometryChanged, r, s) ← env.applySizeHintsConstraints key r s
  -- the first clamp kept a pixel of the requested size visible
  let r ← if geometryChanged then env.applyBoundaryConstraints key interact r s else pure r
  return (geometryChanged || r.x != original.x || r.y != original.y || r.w != original.w || r.h != original.h, r, s)

/-! ## The boundary -/

section

variable {env} {s : WMState} {c : WMClient} {interact : Bool} {r : Rect}

theorem constrainAxis_again (position origin span total : Int) :
    constrainAxis (constrainAxis position origin span total) origin span total = constrainAxis position origin span total := by
  unfold constrainAxis I32.clamp I32.min I32.max
  dsimp only
  split <;> omega

@[simp] theorem boundedRect_w : (env.boundedRect s c interact r).w = r.w := by
  unfold boundedRect
  split
  · rfl
  · split <;> rfl

@[simp] theorem boundedRect_h : (env.boundedRect s c interact r).h = r.h := by
  unfold boundedRect
  split
  · rfl
  · split <;> rfl

theorem boundedRect_again : env.boundedRect s c interact (env.boundedRect s c interact r) = env.boundedRect s c interact r := by
  unfold boundedRect constrainToScreen constrainToMonitor
  rcases interact with _ | _
  · rcases c.mon.bind s.monitors.get? with _ | monitor
    · rfl
    · simp [constrainAxis_again]
  · simp [constrainAxis_again]

/-! ## One application -/

/-- What the hints and the boundary make of `r`. -/
def hintedRect (env : HintEnv) (s : WMState) (c : WMClient) (interact : Bool) (r : Rect) : Rect :=
  let size := calculateConstrainedSize (max r.w 1) (max r.h 1) c.sizeHints
  let bounded := env.boundedRect s c interact { r with w := max r.w 1, h := max r.h 1 }
  if size = (max r.w 1, max r.h 1) then bounded
  else env.boundedRect s c interact { bounded with w := size.1, h := size.2 }

theorem hintedRect_size : ((env.hintedRect s c interact r).w, (env.hintedRect s c interact r).h) =
    calculateConstrainedSize (max r.w 1) (max r.h 1) c.sizeHints := by
  unfold hintedRect
  dsimp only
  split
  · rename_i h
    simp [h]
  · simp

theorem boundedRect_hintedRect : env.boundedRect s c interact (env.hintedRect s c interact r) = env.hintedRect s c interact r := by
  unfold hintedRect
  dsimp only
  split <;> exact boundedRect_again

/-- A floating client whose hints are cached. -/
structure Hinted (s : WMState) (key : ClientKey) (c : WMClient) : Prop where
  get : s.clients.get? key = some c
  floating : c.state.isFloating = true
  valid : c.sizeHints.hintsValid = true

theorem knownClient_eq_ok {key : ClientKey} : s.knownClient key = .ok c ↔ s.clients.get? key = some c := by
  unfold WMState.knownClient
  rcases s.clients.get? key with _ | client
  · simp
  · simp

theorem ensureSizeHintsValid_hinted {key : ClientKey} (h : Hinted s key c) : env.ensureSizeHintsValid key s = .ok s := by
  unfold ensureSizeHintsValid
  rw [h.get, any_some, if_pos h.valid]

/-- The hints are cached afterwards, whatever the backend found; nothing else of the client is touched. -/
theorem ensureSizeHintsValid_ok {s' : WMState} {key : ClientKey} (hget : s.clients.get? key = some c)
    (hf : c.state.isFloating = true) (h : env.ensureSizeHintsValid key s = .ok s') :
    ∃ c', Hinted s' key c' ∧ c'.geometry = c.geometry ∧ c'.mon = c.mon ∧ s'.monitors = s.monitors := by
  unfold ensureSizeHintsValid at h
  rw [hget, any_some] at h
  by_cases hvalid : c.sizeHints.hintsValid = true
  · rw [if_pos hvalid] at h
    cases h
    exact ⟨c, ⟨hget, hf, hvalid⟩, rfl, rfl, rfl⟩
  · rw [if_neg hvalid] at h
    obtain ⟨client, hclient, h⟩ := bind_eq_ok.1 h
    rw [knownClient_eq_ok, hget] at hclient
    cases hclient
    rw [if_neg hvalid] at h
    obtain ⟨hints, -, h⟩ := bind_eq_ok.1 h
    cases h
    refine ⟨refreshClientSizeHints c hints, ⟨?_, ?_, ?_⟩, ?_, ?_, rfl⟩
    · rw [WMState.modifyClient_get?_of hget, if_pos rfl]
    all_goals
      unfold refreshClientSizeHints
      rw [if_neg hvalid]
      rcases hints with _ | hints
    all_goals first | rfl | exact hf

/-- The size hints change a size, or the rectangle is not the one the client has. -/
def Changes (c : WMClient) (r r' : Rect) : Bool :=
  let size := calculateConstrainedSize (max r.w 1) (max r.h 1) c.sizeHints
  (max r.w 1 != size.1 || max r.h 1 != size.2) || r'.x != c.geometry.rect.x || r'.y != c.geometry.rect.y ||
    r'.w != c.geometry.rect.w || r'.h != c.geometry.rect.h

theorem ok_bind {α β : Type} (a : α) (f : α → Except String β) : (Except.ok a >>= f) = f a := rfl

section

variable {key : ClientKey} (h : Hinted s key c)
include h

theorem applySizeHintsConstraints_hinted (r : Rect) :
    let size := calculateConstrainedSize r.w r.h c.sizeHints
    env.applySizeHintsConstraints key r s =
      .ok (r.w != size.1 || r.h != size.2, { r with w := size.1, h := size.2 }, s) := by
  unfold applySizeHintsConstraints
  dsimp only
  rw [ensureSizeHintsValid_hinted h, ok_bind, knownClient_eq_ok.2 h.get, ok_bind, h.get, any_some, h.floating, Bool.not_true,
    Bool.and_false, if_neg Bool.false_ne_true]
  rfl

theorem applyBoundaryConstraints_hinted (interact : Bool) (r : Rect) :
    env.applyBoundaryConstraints key interact r s = .ok (env.boundedRect s c interact r) := by
  unfold applyBoundaryConstraints
  rw [knownClient_eq_ok.2 h.get]
  rfl

theorem applysizehints_hinted (interact : Bool) (r : Rect) : env.applysizehints key interact r s =
      .ok (Changes c r (env.hintedRect s c interact r), env.hintedRect s c interact r, s) := by
  unfold applysizehints
  dsimp only
  rw [knownClient_eq_ok.2 h.get, ok_bind, applyBoundaryConstraints_hinted h, ok_bind, applySizeHintsConstraints_hinted h, ok_bind,
    boundedRect_w, boundedRect_h]
  unfold Changes hintedRect
  generalize hsize : calculateConstrainedSize (max r.w 1) (max r.h 1) c.sizeHints = size
  by_cases hkeep : size = (max r.w 1, max r.h 1)
  · have hrect : ({ env.boundedRect s c interact { r with w := max r.w 1, h := max r.h 1 } with w := size.1, h := size.2 } : Rect) =
        env.boundedRect s c interact { r with w := max r.w 1, h := max r.h 1 } := by
      rw [hkeep]
      exact Rect.sized_self boundedRect_w boundedRect_h
    rw [if_pos hkeep, hrect]
    subst hkeep
    simp
    rfl
  · have hchanged : (max r.w 1 != size.1 || max r.h 1 != size.2) = true := by
      rw [Bool.or_eq_true, bne_iff_ne, bne_iff_ne]
      by_contra hsame
      push Not at hsame
      exact hkeep (Prod.ext hsame.1.symm hsame.2.symm)
    rw [if_neg hkeep, if_pos hchanged, applyBoundaryConstraints_hinted h, ok_bind]
    rfl

end

theorem applysizehints_ok {s' : WMState} {key : ClientKey} {changed : Bool} {r' : Rect} (hget : s.clients.get? key = some c)
    (hf : c.state.isFloating = true) (h : env.applysizehints key interact r s = .ok (changed, r', s')) :
    ∃ c', Hinted s' key c' ∧ c'.geometry = c.geometry ∧ r' = env.hintedRect s' c' interact r := by
  have hens : ∃ s₁, env.ensureSizeHintsValid key s = .ok s₁ := by
    obtain ⟨_, -, h⟩ := bind_eq_ok.1 h
    obtain ⟨_, -, h⟩ := bind_eq_ok.1 h
    obtain ⟨_, hsized, -⟩ := bind_eq_ok.1 h
    unfold applySizeHintsConstraints at hsized
    dsimp only at hsized
    rw [hget, any_some, hf, Bool.not_true, Bool.and_false, if_neg Bool.false_ne_true] at hsized
    obtain ⟨s₁, hs₁, -⟩ := bind_eq_ok.1 hsized
    exact ⟨s₁, hs₁⟩
  obtain ⟨s₁, hs₁⟩ := hens
  obtain ⟨c', hc', hgeometry, hmon, hmonitors⟩ := ensureSizeHintsValid_ok hget hf hs₁
  have hbounded : ∀ q, env.boundedRect s c interact q = env.boundedRect s₁ c' interact q := by
    intro q
    unfold boundedRect
    rw [hgeometry, hmon, hmonitors]
  have hboundary : ∀ q, env.applyBoundaryConstraints key interact q s = env.applyBoundaryConstraints key interact q s₁ := by
    intro q
    unfold applyBoundaryConstraints
    rw [knownClient_eq_ok.2 hget, knownClient_eq_ok.2 hc'.get, ok_bind, ok_bind, hbounded]
  have hsized : ∀ q, env.applySizeHintsConstraints key q s = env.applySizeHintsConstraints key q s₁ := by
    intro q
    unfold applySizeHintsConstraints
    dsimp only
    rw [hs₁, ensureSizeHintsValid_hinted hc', hget, hc'.get, any_some, any_some, hf, hc'.floating, Bool.not_true,
      Bool.and_false, if_neg Bool.false_ne_true, if_neg Bool.false_ne_true]
  have hsame : env.applysizehints key interact r s = env.applysizehints key interact r s₁ := by
    unfold applysizehints
    rw [knownClient_eq_ok.2 hget, knownClient_eq_ok.2 hc'.get, ok_bind, ok_bind, hboundary, hgeometry]
    simp only [hsized]
  rw [hsame, applysizehints_hinted hc'] at h
  cases h
  exact ⟨c', hc', hgeometry, rfl⟩

end

end HintEnv

/-! ## Applying the hints again -/

def SizeHints.NoAspect (hints : SizeHints) : Prop := ¬ (0 < hints.minAspect ∧ 0 < hints.maxAspect)

/-- A second application leaves both sides. -/
structure SizeHints.Settled (hints : SizeHints) (size : Int × Int) : Prop where
  width : SideSettled size.1 hints.baseW hints.incW hints.minW hints.maxW
  height : SideSettled size.2 hints.baseH hints.incH hints.minH hints.maxH

section

variable {hints : SizeHints}

theorem SizeHints.NoAspect.eq (hn : hints.NoAspect) (w h : Int) : calculateConstrainedSize w h hints =
    (constrainSide w hints.baseW hints.incW hints.minW hints.maxW, constrainSide h hints.baseH hints.incH hints.minH hints.maxH) := by
  rw [calculateConstrainedSize_by]
  unfold constrainedSizeBy applyAspectRatioConstraints
  rw [if_neg fun h => hn ⟨h.1, h.2.1⟩]

theorem SizeHints.NoAspect.settles_iff (hn : hints.NoAspect) (w h : Int) :
    let size := calculateConstrainedSize w h hints
    calculateConstrainedSize size.1 size.2 hints = size ↔ hints.Settled size := by
  dsimp only
  rw [hn.eq, hn.eq, Prod.mk.injEq]
  have hwidth := constrainSide_settles_iff w hints.baseW hints.incW hints.minW hints.maxW
  have hheight := constrainSide_settles_iff h hints.baseH hints.incH hints.minH hints.maxH
  constructor
  · rintro ⟨hw, hh⟩
    exact ⟨hwidth.1 hw, hheight.1 hh⟩
  · rintro ⟨hw, hh⟩
    exact ⟨hwidth.2 hw, hheight.2 hh⟩

theorem SizeHints.NoAspect.twice (hn : hints.NoAspect) (w h : Int) :
    let size := calculateConstrainedSize w h hints
    let again := calculateConstrainedSize size.1 size.2 hints
    calculateConstrainedSize again.1 again.2 hints = again := by
  dsimp only
  rw [hn.eq, hn.eq, hn.eq, Prod.mk.injEq]
  exact ⟨constrainSide_twice _ _ _ _ _, constrainSide_twice _ _ _ _ _⟩

end

namespace HintEnv

variable {env : HintEnv} {s : WMState} {key : ClientKey} {c : WMClient} {interact : Bool} {r : Rect}

/-- Where the hints and the boundary have put a window, applying them again changes nothing but a size the hints do not leave. -/
theorem reapplied_iff (h : Hinted s key c) (hr : c.geometry.rect = env.hintedRect s c interact r) :
    env.applysizehints key interact c.geometry.rect s = .ok (false, c.geometry.rect, s) ↔
      calculateConstrainedSize c.geometry.rect.w c.geometry.rect.h c.sizeHints = (c.geometry.rect.w, c.geometry.rect.h) := by
  have hbounded : env.boundedRect s c interact c.geometry.rect = c.geometry.rect := by rw [hr, boundedRect_hintedRect]
  have hone : 1 ≤ c.geometry.rect.w ∧ 1 ≤ c.geometry.rect.h := by
    have hsize := @hintedRect_size env s c interact r
    rw [← hr] at hsize
    have := one_le_calculateConstrainedSize (max r.w 1) (max r.h 1) c.sizeHints
    rwa [← hsize] at this
  rw [applysizehints_hinted h]
  unfold Changes hintedRect
  rw [max_eq_left hone.1, max_eq_left hone.2, hbounded]
  constructor
  · intro hsame
    simp only [Except.ok.injEq, Prod.mk.injEq, Bool.or_eq_false_iff, bne_eq_false_iff_eq] at hsame
    obtain ⟨⟨⟨⟨⟨⟨hw, hh⟩, -⟩, -⟩, -⟩, -⟩, -⟩ := hsame
    exact Prod.ext hw.symm hh.symm
  · intro hsettled
    rw [if_pos hsettled, hsettled]
    simp

end HintEnv

/-- Hints without an aspect leave a size they have made exactly when each side is on a step or held by a bound, and a second
application of them always; a floating window they have placed is then not configured again. -/
theorem size_hints_settle :
    (∀ hints : SizeHints, hints.NoAspect → ∀ w h : Int,
      let size := calculateConstrainedSize w h hints
      let again := calculateConstrainedSize size.1 size.2 hints
      (again = size ↔ hints.Settled size) ∧ calculateConstrainedSize again.1 again.2 hints = again) ∧
    ∀ (env : HintEnv) (s s' : WMState) (key : ClientKey) (c c' : WMClient) (interact : Bool) (r : Rect) (changed : Bool),
      s.clients.get? key = some c → c.state.isFloating = true →
      env.applysizehints key interact r s = .ok (changed, c.geometry.rect, s') → s'.clients.get? key = some c' →
      c'.sizeHints.NoAspect →
      (env.applysizehints key interact c.geometry.rect s' = .ok (false, c.geometry.rect, s') ↔
        c'.sizeHints.Settled (c.geometry.rect.w, c.geometry.rect.h)) ∧
      ∀ r₀ changed₀, env.applysizehints key interact r₀ s = .ok (changed₀, r, s') →
        env.applysizehints key interact c.geometry.rect s' = .ok (false, c.geometry.rect, s') := by
  refine ⟨fun hints hn w h => ⟨hn.settles_iff w h, hn.twice w h⟩, ?_⟩
  intro env s s' key c c' interact r changed hget hf happlied hget' hn
  obtain ⟨c₁, hc₁, hgeometry, hr⟩ := HintEnv.applysizehints_ok hget hf happlied
  obtain rfl : c₁ = c' := by
    rw [hc₁.get] at hget'
    exact Option.some.inj hget'
  have hsize := @HintEnv.hintedRect_size env s' c₁ interact r
  rw [← hr] at hsize
  rw [← hgeometry] at hr hsize ⊢
  rw [HintEnv.reapplied_iff hc₁ hr]
  refine ⟨?_, fun r₀ changed₀ hbefore => ?_⟩
  · have := hn.settles_iff (max r.w 1) (max r.h 1)
    rwa [← hsize] at this
  · obtain ⟨c₀, hc₀, -, hr₀⟩ := HintEnv.applysizehints_ok hget hf hbefore
    obtain rfl : c₀ = c₁ := Option.some.inj (hc₀.get.symm.trans hc₁.get)
    have hsize₀ := @HintEnv.hintedRect_size env s' c₀ interact r₀
    rw [← hr₀] at hsize₀
    have hone := one_le_calculateConstrainedSize (max r₀.w 1) (max r₀.h 1) c₀.sizeHints
    rw [← hsize₀] at hone
    rw [max_eq_left hone.1, max_eq_left hone.2] at hsize
    have htwice := hn.twice (max r₀.w 1) (max r₀.h 1)
    rw [← hsize₀] at htwice
    dsimp only at htwice
    rwa [← hsize] at htwice

namespace HintSample

def env : HintEnv := ⟨false, 800, 600, fun _ => .ok none⟩

def key : ClientKey := ⟨1, 1⟩

/-- A floating terminal whose width grows in steps of ten. -/
def terminal (maxW : Int) (rect : Rect) : WMClient where
  geometry := { floatingRect := rect, rect }
  state := { isFloating := true }
  sizeHints := { incW := 10, maxW, hintsValid := true }

def desk (maxW : Int) (rect : Rect) : WMState where
  clients := ⟨[(key, terminal maxW rect)], by simp⟩
  monitors := .empty
  monitorClients := .empty
  monitorStack := .empty

theorem hinted (maxW : Int) (rect : Rect) : HintEnv.Hinted (desk maxW rect) key (terminal maxW rect) := by
  refine ⟨?_, rfl, rfl⟩
  simp [desk, KeyMap.get?]

theorem noAspect (maxW : Int) (rect : Rect) : (terminal maxW rect).sizeHints.NoAspect := by
  rintro ⟨h, -⟩
  exact not_zero_lt_zero h

/-- One call of `applysizehints` on the terminal. -/
theorem applied {maxW : Int} {rect r r' : Rect} {changed : Bool}
    (hr : env.hintedRect (desk maxW rect) (terminal maxW rect) true r = r')
    (hc : HintEnv.Changes (terminal maxW rect) r r' = changed) :
    env.applysizehints key true r (desk maxW rect) = .ok (changed, r', desk maxW rect) := by
  rw [HintEnv.applysizehints_hinted (hinted maxW rect), hr, hc]

end HintSample

open HintSample

/-- A maximum that is no step: 100 becomes 95, and 95 becomes 90, so that the window placed at 95 is configured again. -/
theorem maximum_off_step_creeps : SizeHints.NoAspect { incW := 10, maxW := 95 } ∧
    calculateConstrainedSize 100 50 { incW := 10, maxW := 95 } = (95, 50) ∧
    calculateConstrainedSize 95 50 { incW := 10, maxW := 95 } = (90, 50) ∧
    HintSample.env.applysizehints HintSample.key true ⟨20, 30, 100, 50⟩ (HintSample.desk 95 ⟨20, 30, 95, 50⟩) =
      .ok (true, ⟨20, 30, 95, 50⟩, HintSample.desk 95 ⟨20, 30, 95, 50⟩) ∧
    HintSample.env.applysizehints HintSample.key true ⟨20, 30, 95, 50⟩ (HintSample.desk 95 ⟨20, 30, 95, 50⟩) =
      .ok (true, ⟨20, 30, 90, 50⟩, HintSample.desk 95 ⟨20, 30, 95, 50⟩) :=
  ⟨fun h => not_zero_lt_zero h.1, by decide +kernel, by decide +kernel,
    applied (by decide +kernel) (by decide +kernel), applied (by decide +kernel) (by decide +kernel)⟩

theorem size_hints_settle_on_step : calculateConstrainedSize 95 50 { incW := 10 } = (90, 50) ∧
    HintSample.env.applysizehints HintSample.key true ⟨20, 30, 90, 50⟩ (HintSample.desk 0 ⟨20, 30, 90, 50⟩) =
      .ok (false, ⟨20, 30, 90, 50⟩, HintSample.desk 0 ⟨20, 30, 90, 50⟩) := by
  have hsample : calculateConstrainedSize 95 50 { incW := 10 } = (90, 50) := by decide +kernel
  have hsettled : SizeHints.Settled (terminal 0 ⟨20, 30, 90, 50⟩).sizeHints (90, 50) :=
    ⟨.inr (.inl (by decide)), .inl (by decide)⟩
  exact ⟨hsample, (size_hints_settle.2 HintSample.env _ _ _ _ _ true ⟨20, 30, 95, 50⟩ true (hinted 0 ⟨20, 30, 90, 50⟩).get
    rfl (applied (by decide +kernel) (by decide +kernel)) (hinted 0 ⟨20, 30, 90, 50⟩).get
    (noAspect _ _)).1.2 hsettled⟩

end Jwm
