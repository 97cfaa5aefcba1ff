/-
Where a floating window rests while fullscreen, PiP and off-screen parking borrow its rectangles: `home`
names the slot, `Rests` what every transition keeps, and each operation has one lemma saying so.
-/
import Jwm.Wm.ModeFrames

namespace Jwm

open List Option

/-! ## The resting slot -/

namespace WMClient

/-- The rectangle the window has once it is shown in neither mode. -/
def home (c : WMClient) : Rect :=
  if c.state.isFullscreen then c.geometry.oldRect
  else if c.state.isPip then c.geometry.floatingRect
  else c.geometry.visibleRect

/-- `old_state` while in a mode, `is_floating` otherwise. -/
def restingFloating (c : WMClient) : Bool :=
  if c.state.isFullscreen || c.state.isPip then c.state.oldState else c.state.isFloating

/-- `pip_restore_sticky` in PiP, `is_sticky` otherwise. -/
def restingSticky (c : WMClient) : Bool := if c.state.isPip then c.state.pipRestoreSticky else c.state.isSticky

/-- Visible on a monitor that views the tags `active`. -/
def visibleIn (c : WMClient) (active : BitVec 32) : Bool :=
  !(c.state.isSwallowed || c.state.isHidden) && (c.state.isSticky || c.state.tags &&& active != 0)

end WMClient

/-- Within the monitor's work area, which lies on the monitor; sides the backend can configure. -/
structure Rect.Inside (r : Rect) (g : MonitorGeometry) : Prop where
  left : g.wX ≤ r.x
  right : r.x + r.w ≤ g.wX + g.wW
  top : g.wY ≤ r.y
  bottom : r.y + r.h ≤ g.wY + g.wH
  sides : r.Configurable
  xRange : I32.min ≤ r.x ∧ r.x ≤ I32.max
  yRange : I32.min ≤ r.y ∧ r.y ≤ I32.max
  monitor : g.mX ≤ g.wX

/-- An ordinary floating window of `mon` that rests at `r` with the sticky flag `sticky`, whatever modes it is
in. -/
structure Rests (mon : MonitorKey) (r : Rect) (sticky : Bool) (c : WMClient) : Prop where
  mon : c.mon = some mon
  exclusive : ¬ (c.state.isFullscreen = true ∧ c.state.isPip = true)
  floating : c.state.isFloating = true
  returns : c.restingFloating = true
  sticky : c.restingSticky = sticky
  shows : c.state.isPip = true → c.state.isSticky = true
  home : c.home = r
  parked : c.geometry.hiddenX.isSome = c.geometry.hiddenRestoreRect.isSome
  unmaximized : c.state.maximizedAxes = .none
  dock : c.state.isDock = false
  swallowed : c.state.isSwallowed = false
  hints : c.sizeHints.Unset

/-- The window's record, its monitor and its place in the focus stack. -/
structure AtHome (key : ClientKey) (mon : MonitorKey) (r : Rect) (sticky : Bool) (s : WMState) : Prop where
  client : ∃ c, s.clients.get? key = some c ∧ Rests mon r sticky c
  monitor : ∃ m, s.monitors.get? mon = some m ∧ r.Inside m.geometry
  focusStack : key ∈ (s.monitorStack.get? mon).getD []

/-- A window in view is not parked and a minimized one is. -/
structure Exposed (key : ClientKey) (s : WMState) : Prop where
  shown : ∀ c, s.clients.get? key = some c → isClientVisibleByKey s key = true → c.geometry.hiddenRestoreRect = none
  minimized : ∀ c, s.clients.get? key = some c → c.state.isHidden = true → c.geometry.hiddenRestoreRect.isSome = true

/-! ## Caching hints -/

/-- The same client, but for hints cached since. -/
structure Alike (c c' : WMClient) : Prop where
  standing : c'.standing = c.standing
  geometry : c'.geometry = c.geometry
  hints : c.sizeHints.Unset → c'.sizeHints.Unset

theorem Alike.refl (c : WMClient) : Alike c c := ⟨rfl, rfl, id⟩

variable {c c' : WMClient}

theorem WMClient.eq_of_standing (h : c'.standing = c.standing) :
    c'.mon = c.mon ∧ c'.state = { c.state with isFixed := c'.state.isFixed } := by
  have hm := congrArg Prod.fst h
  have hs := congrArg (fun p => { p.2 with isFixed := c'.state.isFixed }) h
  exact ⟨hm, hs⟩

open WMClient

/-- What `Rests` reads of the geometry. -/
theorem Rests.of_standing {mon : MonitorKey} {r : Rect} {sticky : Bool} (h : Rests mon r sticky c)
    (hs : c'.standing = c.standing) (hu : c'.sizeHints.Unset) (hh : c'.home = r)
    (hp : c'.geometry.hiddenX.isSome = c'.geometry.hiddenRestoreRect.isSome) : Rests mon r sticky c' := by
  obtain ⟨hm, hst⟩ := eq_of_standing hs
  have hfl : c'.restingFloating = c.restingFloating := by unfold restingFloating; rw [hst]
  have hsk : c'.restingSticky = c.restingSticky := by unfold restingSticky; rw [hst]
  exact { mon := hm.trans h.mon, exclusive := by rw [hst]; exact h.exclusive, floating := by rw [hst]; exact h.floating
          returns := hfl.trans h.returns, sticky := hsk.trans h.sticky, shows := by rw [hst]; exact h.shows
          home := hh, parked := hp, unmaximized := by rw [hst]; exact h.unmaximized
          dock := by rw [hst]; exact h.dock, swallowed := by rw [hst]; exact h.swallowed, hints := hu }

theorem Alike.rests {mon : MonitorKey} {r : Rect} {sticky : Bool} (ha : Alike c c')
    (h : Rests mon r sticky c) : Rests mon r sticky c' := by
  obtain ⟨-, hst⟩ := eq_of_standing ha.standing
  refine h.of_standing ha.standing (ha.hints h.hints) ?_ (by rw [ha.geometry]; exact h.parked)
  rw [← h.home]
  unfold WMClient.home
  rw [hst, ha.geometry]

variable {env : ModeEnv} {key : ClientKey} {mon : MonitorKey} {r : Rect} {sticky : Bool}

/-- The backend knows no hints of the window, or only unset ones. -/
def NoHints (env : ModeEnv) (key : ClientKey) : Prop := ∀ hints, env.normalHints key = some hints → hints.Unset

theorem alike_refreshClientSizeHints (hn : NoHints env key) (c : WMClient) :
    Alike c (refreshClientSizeHints c (env.normalHints key)) := by
  refine ⟨standing_refreshClientSizeHints c _, ?_, fun h => ?_⟩
  · unfold refreshClientSizeHints
    split
    · rfl
    · cases env.normalHints key with
      | none | some hints => rfl
  · unfold refreshClientSizeHints
    split
    · exact h
    · cases hk : env.normalHints key with
      | none => exact ⟨rfl⟩
      | some hints => exact ⟨(hn hints hk).eq⟩

def StaysAlike (key : ClientKey) (c : WMClient) (w : ModeWorld) : Prop :=
  ∃ c', w.state.clients.get? key = some c' ∧ Alike c c'

variable {w : ModeWorld}

theorem ensureSizeHintsValid_spec (hn : NoHints env key) (hc : w.state.clients.get? key = some c) :
    Ensures (env.ensureSizeHintsValid key) w (fun _ => StaysAlike key c) (StaysAlike key c) := by
  refine ensures_bind (ensures_getClient hc (ensures_ite (fun _ => ?_) fun _ => ensures_pure ⟨c, hc, .refl c⟩))
  refine ensures_bind (ensures_bind ?_)
  refine ensures_ite (fun _ => ensures_pure (ensures_modifyState ?_)) fun _ => ensures_throw ⟨c, hc, .refl c⟩
  refine ⟨refreshClientSizeHints c (env.normalHints key), ?_, alike_refreshClientSizeHints hn c⟩
  rw [WMState.modifyClient_get?_of hc, if_pos rfl]

/-- The client's monitor has the rectangle inside its work area. -/
def FitsOn (c : WMClient) (s : WMState) (q : Rect) : Prop :=
  ∃ m, c.mon.bind s.monitors.get? = some m ∧ q.Inside m.geometry

theorem applyBoundaryConstraints_spec (hc : w.state.clients.get? key = some c)
    (q : Rect) : Ensures (ModeEnv.applyBoundaryConstraints key q) w
      (fun q' w' => w' = w ∧ (FitsOn c w.state q → q' = q)) (fun _ => False) := by
  refine ensures_bind (ensures_getClient hc (ensures_bind (ensures_getState ?_)))
  unfold FitsOn
  cases c.mon.bind w.state.monitors.get? with
  | none => exact ⟨rfl, fun _ => rfl⟩
  | some m =>
    refine ⟨rfl, fun ⟨m', hm, hi⟩ => ?_⟩
    cases hm
    have hw := hi.sides.w.1
    have hh := hi.sides.h.1
    have hr := hi.right
    have hb := hi.bottom
    show (⟨constrainAxis q.x _ _ _, constrainAxis q.y _ _ _, q.w, q.h⟩ : Rect) = q
    rw [constrainAxis_inside hi.left (by omega) hi.xRange, constrainAxis_inside hi.top (by omega) hi.yRange]

theorem applySizeHintsConstraints_spec (hn : NoHints env key) (hc : w.state.clients.get? key = some c) (q : Rect) :
    Ensures (env.applySizeHintsConstraints key q) w
      (fun q' w' => StaysAlike key c w' ∧ (c.sizeHints.Unset → q.Configurable → q' = q)) (StaysAlike key c) := by
  refine ensures_bind (ensures_getClient hc (ensures_ite (fun _ => ?_) fun _ => ?_))
  · exact ensures_pure ⟨⟨c, hc, .refl c⟩, fun _ _ => rfl⟩
  · refine (ensureSizeHintsValid_spec hn hc).bind (fun _ w' ⟨c', hc', ha⟩ => ?_) fun _ h => h
    refine ensures_bind (ensures_getClient hc' (ensures_pure ⟨⟨c', hc', ha⟩, fun hu hq => ?_⟩))
    have hsize := calculateConstrainedSize_unset (ha.hints hu) hq
    exact congrArg (fun p : Int × Int => ({ q with w := p.1, h := p.2 } : Rect)) hsize

theorem applysizehints_spec (hn : NoHints env key) (hc : w.state.clients.get? key = some c) (target : Rect) :
    Ensures (env.applysizehints key target) w
      (fun q w' => StaysAlike key c w' ∧ (c.sizeHints.Unset → FitsOn c w.state target → q = target))
      (StaysAlike key c) := by
  have hone : FitsOn c w.state target → ({ target with w := max target.w 1, h := max target.h 1 } : Rect) = target :=
    fun ⟨_, _, hi⟩ => by rw [max_eq_left hi.sides.w.1, max_eq_left hi.sides.h.1]
  refine (applyBoundaryConstraints_spec hc _).bind (fun q₁ w₁ ⟨hw, h₁⟩ => ?_) fun _ h => h.elim
  subst hw
  refine (applySizeHintsConstraints_spec hn hc q₁).bind (fun q₂ w₂ ⟨⟨c', hc', ha⟩, h₂⟩ => ?_) fun _ h => h
  have hq : c.sizeHints.Unset → FitsOn c w₁.state target → q₁ = target ∧ q₂ = q₁ := fun hu hf => by
    obtain ⟨m, hm, hi⟩ := hf
    rw [hone ⟨m, hm, hi⟩] at h₁
    obtain rfl := h₁ ⟨m, hm, hi⟩
    exact ⟨rfl, h₂ hu hi.sides⟩
  refine ensures_ite (fun _ => ensures_pure ⟨⟨c', hc', ha⟩, fun hu hf => ?_⟩) fun hne => ?_
  · obtain ⟨h, h'⟩ := hq hu hf
    exact h'.trans h
  · refine (applyBoundaryConstraints_spec hc' q₂).mono (fun q₃ w₃ ⟨hw, _⟩ => ?_) fun _ h => h.elim
    subst hw
    exact ⟨⟨c', hc', ha⟩, fun hu hf => absurd (hq hu hf).2 hne⟩

/-! ## Moving the live rectangle -/

theorem resizeclient_spec (hc : w.state.clients.get? key = some c) (q : Rect) : Ensures (env.resizeclient key q) w
      (fun _ w' => w'.state.clients.get? key =
        some { c with geometry := { c.geometry with oldRect := c.geometry.rect, rect := q } })
      (fun w' => w'.state.clients.get? key =
        some { c with geometry := { c.geometry with oldRect := c.geometry.rect, rect := q } }) := by
  have h := WMState.modifyClient_get?_of hc
    (fun c => { c with geometry := { c.geometry with oldRect := c.geometry.rect, rect := q } }) key
  rw [if_pos rfl] at h
  refine ensures_bind (ensures_modifyState (ensures_bind ?_))
  exact ensures_ite (fun _ => ensures_pure h) fun _ => ensures_throw h

/-! ## Show and hide -/

/-- The client rests as before, parked or not, and its flags are those of `c`. -/
def RestsAs (key : ClientKey) (mon : MonitorKey) (r : Rect) (sticky isParked : Bool) (c : WMClient) (w : ModeWorld) :
    Prop :=
  ∃ c', w.state.clients.get? key = some c' ∧ Rests mon r sticky c' ∧ c'.standing = c.standing ∧
    c'.geometry.hiddenRestoreRect.isSome = isParked

theorem Rests.home_unparked (h : Rests mon r sticky c) (hn : c.geometry.hiddenRestoreRect = none)
    (hf : c.state.isFullscreen = false) (hp : c.state.isPip = false) : c.geometry.rect = r := by
  have hh := h.home
  unfold WMClient.home ClientGeometry.visibleRect at hh
  rw [hf, hp, hn] at hh
  exact hh

/-- Changes of the live rectangle that a window outside both modes does not notice. -/
theorem Rests.rerect (h : Rests mon r sticky c) (hs : c'.standing = c.standing)
    (hu : c'.sizeHints.Unset) (hp : c'.geometry.hiddenX.isSome = c'.geometry.hiddenRestoreRect.isSome)
    (hold : c.state.isFullscreen = true → c'.geometry.oldRect = c.geometry.oldRect)
    (hfl : c'.geometry.floatingRect = c.geometry.floatingRect)
    (hv : c.state.isFullscreen = false → c.state.isPip = false → c'.geometry.visibleRect = r) :
    Rests mon r sticky c' := by
  refine h.of_standing hs hu ?_ hp
  have hh := h.home
  unfold WMClient.home at hh ⊢
  rw [(eq_of_standing hs).2]
  cases hf : c.state.isFullscreen with
  | true =>
    rw [hf, if_pos rfl] at hh
    rw [if_pos rfl, hold hf, hh]
  | false =>
    rw [hf, if_neg Bool.false_ne_true] at hh
    rw [if_neg Bool.false_ne_true]
    cases hpip : c.state.isPip with
    | true =>
      rw [hpip, if_pos rfl] at hh
      rw [if_pos rfl, hfl, hh]
    | false =>
      rw [if_neg Bool.false_ne_true]
      exact hv hf hpip

variable {E : ModeWorld → Prop}

theorem resizeClient_rests (hn : NoHints env key)
    (hc : w.state.clients.get? key = some c) (h : Rests mon r sticky c) (hu : c.geometry.hiddenRestoreRect = none)
    (hf : c.state.isFullscreen = false) (hfit : FitsOn c w.state r) :
    Ensures (env.resizeClient key c.geometry.rect) w (fun _ => RestsAs key mon r sticky false c) E := by
  refine ensures_bind (ensures_attempt ((applysizehints_spec hn hc _).mono ?_ ?_))
  · rintro q w₁ ⟨⟨c₁, hc₁, ha⟩, hq⟩
    refine ensures_bind (ensures_attempt ?_)
    have hgoal : ∀ w₂ : ModeWorld, w₂.state.clients.get? key =
        some { c₁ with geometry := { c₁.geometry with oldRect := c₁.geometry.rect, rect := q } } →
        RestsAs key mon r sticky false c w₂ := fun w₂ hw₂ => by
      refine ⟨_, hw₂, ?_, ha.standing, ?_⟩
      · have hfloat : c₁.geometry.floatingRect = c.geometry.floatingRect := by rw [ha.geometry]
        refine h.rerect ha.standing (ha.hints h.hints) ?_ (fun ht => ?_) hfloat fun _ hp => ?_
        · rw [ha.geometry]
          exact h.parked
        · rw [hf] at ht
          cases ht
        · have hr := h.home_unparked hu hf hp
          show (c₁.geometry.hiddenRestoreRect).getD q = r
          rw [ha.geometry, hu, hq h.hints (by rw [hr]; exact hfit), hr]
          rfl
      · rw [ha.geometry, hu]
        rfl
    exact (resizeclient_spec hc₁ q).mono (fun _ w₂ hw₂ => hgoal w₂ hw₂) fun w₂ hw₂ _ => hgoal w₂ hw₂
  · rintro w₁ ⟨c₁, hc₁, ha⟩ e
    exact ⟨c₁, hc₁, ha.rests h, ha.standing, by rw [ha.geometry, hu]; rfl⟩

variable {s : WMState} {m : WMMonitor}

theorem desktopLeftEdge_le (hm : s.monitors.get? mon = some m) : desktopLeftEdge s ≤ m.geometry.mX := by
  have hmem : m.geometry.mX ∈ s.monitors.entries.map fun e => e.2.geometry.mX :=
    List.mem_map.2 ⟨_, KeyMap.get?_eq_some.1 hm, rfl⟩
  unfold desktopLeftEdge
  cases hx : (s.monitors.entries.map fun e => e.2.geometry.mX).min? with
  | none =>
    rw [min?_eq_none_iff] at hx
    rw [hx] at hmem
    cases hmem
  | some x => exact ((min?_eq_some_iff).1 hx).2 _ hmem

variable {g : ClientGeometry} {left : Int} {s' : WMState}

theorem Rect.Inside.not_left {g : MonitorGeometry} (h : r.Inside g) {total : Int} (hl : left ≤ g.mX) :
    isFullyLeftOfDesktop r.x total left = false := by
  have h1 : 1 ≤ max total 1 := le_max_right _ _
  have h2 := h.left
  have h3 := h.monitor
  exact decide_eq_false (by omega)

theorem planHiddenRestore_slot {restore : Rect} (h : g.hiddenRestoreRect = some restore)
    (left : Int) : planHiddenRestore g left = some (.slot restore) := by
  unfold planHiddenRestore
  rw [h, isSome_some, Bool.or_true, Bool.true_or, if_pos rfl]

theorem planHiddenRestore_shown (hx : g.hiddenX = none)
    (hr : g.hiddenRestoreRect = none) (hl : isFullyLeftOfDesktop g.rect.x g.totalWidth left = false) :
    planHiddenRestore g left = none := by
  unfold planHiddenRestore
  rw [hx, hr, hl]
  rfl

theorem restoreHiddenGeometry_slot (g : ClientGeometry) (left x : Int) :
    (restoreHiddenGeometry g left x).hiddenRestoreRect = none := by
  unfold restoreHiddenGeometry
  cases hp : planHiddenRestore g left with
  | some plan => rfl
  | none =>
    cases hr : g.hiddenRestoreRect with
    | none => rfl
    | some v => rw [planHiddenRestore_slot hr] at hp; cases hp

/-- Showing a window takes it out of its parking place, back to where it rests. -/
theorem rests_restoreHiddenGeometry (h : Rests mon r sticky c) (x : Int)
    (hleft : ∀ total, isFullyLeftOfDesktop r.x total left = false) :
    Rests mon r sticky { c with geometry := restoreHiddenGeometry c.geometry left x } := by
  unfold restoreHiddenGeometry
  cases hp : planHiddenRestore c.geometry left with
  | none => exact h
  | some plan =>
    refine h.rerect rfl h.hints rfl (fun _ => rfl) rfl fun hf hpip => ?_
    cases hr : c.geometry.hiddenRestoreRect with
    | some v =>
      -- the slot is where the window rests
      have hv := h.home
      unfold WMClient.home ClientGeometry.visibleRect at hv
      rw [hf, hpip, hr] at hv
      rw [planHiddenRestore_slot hr] at hp
      cases hp
      exact hv
    | none =>
      have hx : c.geometry.hiddenX = none := by
        have hx := h.parked
        rw [hr] at hx
        exact not_isSome_iff_eq_none.1 (by rw [hx]; exact Bool.false_ne_true)
      rw [planHiddenRestore_shown hx hr (by rw [h.home_unparked hr hf hpip]; exact hleft _)] at hp
      cases hp

theorem ensures_ask {Q : Bool → ModeWorld → Prop}
    (h : Q (env.answer w.asked) { w with asked := w.asked + 1 }) : Ensures env.ask w Q E := h

theorem ensures_modifyClient (hc : w.state.clients.get? key = some c)
    {f : WMClient → WMClient} {Q : Unit → ModeWorld → Prop}
    (h : (w.state.modifyClient key f).clients.get? key = some (f c) →
      Q () { w with state := w.state.modifyClient key f }) : Ensures (modifyClient key f) w Q E :=
  ensures_modifyState (h (by rw [WMState.modifyClient_get?_of hc, if_pos rfl]))

theorem showClient_rests (hn : NoHints env key) (hc : w.state.clients.get? key = some c) (h : Rests mon r sticky c)
    (hm : ∃ m, w.state.monitors.get? mon = some m ∧ r.Inside m.geometry) :
    Ensures (env.showClient key) w (fun _ => RestsAs key mon r sticky false c) E := by
  obtain ⟨m, hm, hi⟩ := hm
  refine ensures_bind (ensures_getState ?_)
  rw [hc]
  dsimp only
  generalize env.legacyFallbackX w.state c = x
  refine ensures_bind (ensures_modifyClient hc fun hget => ensures_bind (ensures_ask (ensures_bind (ensures_getState ?_))))
  rw [hget]
  have hrests := rests_restoreHiddenGeometry h x fun total => hi.not_left (desktopLeftEdge_le hm)
  have hnone := restoreHiddenGeometry_slot c.geometry (desktopLeftEdge w.state) x
  refine ensures_ite (fun hif => ?_) fun _ => ensures_pure ⟨_, hget, hrests, rfl, ?_⟩
  · rw [Bool.and_eq_true, Bool.not_eq_true'] at hif
    refine (resizeClient_rests hn hget hrests hnone hif.2 ⟨m, ?_, hi⟩).mono ?_ fun _ h => h
    · rw [hrests.mon]
      exact hm
    · rintro _ w' ⟨c', hc', hr', hs', hp'⟩
      exact ⟨c', hc', hr', hs', hp'⟩
  · rw [hnone]
    rfl

theorem hideClient_rests (hc : w.state.clients.get? key = some c) (h : Rests mon r sticky c) :
    Ensures (env.hideClient key) w (fun _ => RestsAs key mon r sticky true c) E := by
  refine ensures_bind (ensures_getState ?_)
  rw [hc]
  generalize hiddenXLeftOfDesktop (desktopLeftEdge w.state) c.geometry.totalWidth = x
  refine ensures_bind (ensures_modifyClient hc fun hget => ensures_bind (ensures_ask (ensures_pure ?_)))
  refine ⟨_, hget, ?_, rfl, rfl⟩
  refine h.rerect rfl h.hints rfl (fun _ => rfl) rfl fun hf hp => ?_
  have hh := h.home
  unfold WMClient.home at hh
  rw [hf, hp] at hh
  exact hh

/-! ## Arranging the monitor -/

theorem WMClient.visibleIn_of_standing (h : c'.standing = c.standing) (active : BitVec 32) :
    c'.visibleIn active = c.visibleIn active := by
  unfold visibleIn
  rw [(eq_of_standing h).2]

theorem visibleOnMonitor_eq (hc : s.clients.get? key = some c)
    (hm : s.monitors.get? mon = some m) : isClientVisibleOnMonitor s key mon = c.visibleIn m.activeTags := by
  unfold isClientVisibleOnMonitor
  rw [hc, hm]
  rfl

theorem visibleByKey_eq (hc : s.clients.get? key = some c)
    (hmon : c.mon = some mon) (hm : s.monitors.get? mon = some m) :
    isClientVisibleByKey s key = c.visibleIn m.activeTags := by
  unfold isClientVisibleByKey
  rw [hc, bind_some, hmon, any_some, visibleOnMonitor_eq hc hm]

open WMMonitor

theorem WMMonitor.of_outlook (h : (s'.monitors.get? mon).map outlook = (s.monitors.get? mon).map outlook)
    (hm : s.monitors.get? mon = some m) :
    ∃ m', s'.monitors.get? mon = some m' ∧ m'.geometry = m.geometry ∧ m'.activeTags = m.activeTags := by
  rw [hm] at h
  obtain ⟨m', hm', ho⟩ := map_eq_some_iff.1 h
  have htags : m'.tagSet = m.tagSet := congrArg (·.2.1) ho
  have hsel : m'.selTags = m.selTags := congrArg (·.2.2) ho
  exact ⟨m', hm', congrArg Prod.fst ho, by unfold activeTags; rw [htags, hsel]⟩

theorem AtHome.of_steady (h : AtHome key mon r sticky s) (hs : Steady s s')
    (hc : ∃ c, s'.clients.get? key = some c ∧ Rests mon r sticky c) : AtHome key mon r sticky s' := by
  obtain ⟨m, hm, hi⟩ := h.monitor
  obtain ⟨m', hm', hg, -⟩ := of_outlook (hs.monitors mon) hm
  exact ⟨hc, ⟨m', hm', by rw [hg]; exact hi⟩, by rw [hs.focusStacks]; exact h.focusStack⟩

/-- The window rests at `r`, on screen while it is in view and parked while it is minimized. -/
structure Homed (key : ClientKey) (mon : MonitorKey) (r : Rect) (sticky : Bool) (s : WMState) : Prop extends
    AtHome key mon r sticky s, Exposed key s

abbrev HomedIn (key : ClientKey) (mon : MonitorKey) (r : Rect) (sticky : Bool) (w : ModeWorld) : Prop :=
  Homed key mon r sticky w.state

theorem showhideClient_rests (hn : NoHints env key)
    (hc : w.state.clients.get? key = some c) (h : Rests mon r sticky c) (hm : w.state.monitors.get? mon = some m)
    (hi : r.Inside m.geometry) :
    Ensures (env.showhideClient key mon) w (fun _ => RestsAs key mon r sticky (!c.visibleIn m.activeTags) c) E := by
  refine ensures_bind (ensures_getState (ensures_ite (fun hd => ?_) fun _ => ?_))
  · rw [hc, any_some, h.dock] at hd
    cases hd
  · rw [visibleOnMonitor_eq hc hm]
    cases c.visibleIn m.activeTags with
    | true => exact showClient_rests hn hc h ⟨m, hm, hi⟩
    | false => exact hideClient_rests hc h

/-- What one pass over the focus stack keeps: the window rests and its flags are those of `c₀`. -/
structure Passing (key : ClientKey) (mon : MonitorKey) (r : Rect) (sticky : Bool) (c₀ : WMClient) (s₀ : WMState)
    (w : ModeWorld) : Prop where
  client : ∃ c, w.state.clients.get? key = some c ∧ Rests mon r sticky c ∧ c.standing = c₀.standing
  arranged : Arranged s₀ w.state

/-- The pass has been over the window: it is parked exactly when it is out of view. -/
def Passed (key : ClientKey) (isParked : Bool) (w : ModeWorld) : Prop :=
  ∃ c, w.state.clients.get? key = some c ∧ c.geometry.hiddenRestoreRect.isSome = isParked

theorem showhide_pass (hn : NoHints env key) {s₀ : WMState} {c₀ : WMClient}
    (hm : s₀.monitors.get? mon = some m) (hi : r.Inside m.geometry) (l : List ClientKey) (w : ModeWorld)
    (hp : Passing key mon r sticky c₀ s₀ w) :
    Ensures (l.forM fun k => env.showhideClient k mon) w
      (fun _ w' => Passing key mon r sticky c₀ s₀ w' ∧
        (key ∈ l ∨ Passed key (!c₀.visibleIn m.activeTags) w → Passed key (!c₀.visibleIn m.activeTags) w'))
      (fun _ => False) := by
  induction l generalizing w with
  | nil => exact ensures_pure ⟨hp, fun h => h.resolve_left not_mem_nil⟩
  | cons k l ih =>
    obtain ⟨c, hc, hr, hst⟩ := hp.client
    by_cases hk : key = k
    · subst hk
      obtain ⟨m', hm', hg, hact⟩ := of_outlook (hp.arranged.monitors mon) hm
      have hshow : Ensures (env.showhideClient key mon) w
          (fun _ => RestsAs key mon r sticky (!c.visibleIn m'.activeTags) c) (fun _ => True) :=
        showhideClient_rests hn hc hr hm' (by rw [hg]; exact hi)
      refine (((lenient_arranged key).returns_showhideClient env mon).ensures hshow).bind
        (fun _ w₁ ⟨ha, c₁, hc₁, hr₁, hs₁, hpark⟩ => ?_) fun _ h => h
      have hd : Passed key (!c₀.visibleIn m.activeTags) w₁ :=
        ⟨c₁, hc₁, by rw [hpark, hact, visibleIn_of_standing hst]⟩
      exact (ih w₁ ⟨⟨c₁, hc₁, hr₁, hs₁.trans hst⟩, hp.arranged.trans ha⟩).mono
        (fun _ w' h => ⟨h.1, fun _ => h.2 (.inr hd)⟩) fun _ h => h
    · refine (((lenient_arranged k).returns_showhideClient env mon).ensures
        ((lenient_other (Ne.symm hk)).returns_showhideClient env mon w)).bind (fun _ w₁ ⟨ha, hsame⟩ => ?_) fun _ h => h
      refine (ih w₁ ⟨⟨c, hsame.trans hc, hr, hst⟩, hp.arranged.trans ha⟩).mono
        (fun _ w' h => ⟨h.1, fun hin => h.2 ?_⟩) fun _ h => h
      rcases hin with hin | ⟨c', hc', hpark⟩
      · exact .inl ((mem_cons.1 hin).resolve_left hk)
      · exact .inr ⟨c', hsame.trans hc', hpark⟩

/-! A floating window that is not maximized is neither the bar nor a tile, and no refit moves it. -/

theorem lasting_same (key : ClientKey) :
    Lasting fun w w' : ModeWorld => w'.state.clients.get? key = w.state.clients.get? key :=
  ⟨fun _ => rfl, fun h h' => h'.trans h⟩

variable {α : Type} {x : Modes α}

abbrev IsStill (key : ClientKey) (c : WMClient) (w : ModeWorld) : Prop := w.state.clients.get? key = some c

theorem kept_of_same (hx : Always (fun w w' => w'.state.clients.get? key = w.state.clients.get? key) x)
    (hc : w.state.clients.get? key = some c) : Ensures x w (fun _ => IsStill key c) (IsStill key c) :=
  (hx w).mono (fun _ _ h => h.trans hc) fun _ h => h.trans hc

section

variable (h : Rests mon r sticky c) (hc : w.state.clients.get? key = some c)
include h hc

theorem syncSecondaryBarPosition_kept (m : MonitorKey) : Ensures (env.syncSecondaryBarPosition m) w (fun _ => IsStill key c) (IsStill key c) := by
  refine ensures_bind (ensures_getState ?_)
  cases env.statusBar w.state m with
  | none => exact ensures_pure hc
  | some bar =>
    have hne : bar.client ≠ key := by
      intro heq
      have hdock := bar.dock
      rw [heq, hc, all_some, h.dock] at hdock
      cases hdock
    exact kept_of_same (Lenient.returns_placeBar env bar (lenient_other hne)).always hc

theorem arrangemon_kept (m : MonitorKey) : Ensures (env.arrangemon m) w (fun _ => IsStill key c) (IsStill key c) := by
  have htile : ∀ s : WMState, s.clients.get? key = some c → ∀ k ∈ tiledKeys s m, k ≠ key := by
    rintro s hs k hk rfl
    have htiled := (mem_filter.1 hk).2
    unfold showsTiled WMState.isClientFloating at htiled
    rw [hs, any_some, h.floating, Bool.not_true, Bool.and_false] at htiled
    cases htiled
  have hlast := lasting_same key
  refine ensures_bind (ensures_getState ?_)
  cases w.state.monitors.get? m with
  | none => exact ensures_pure hc
  | some monitor =>
    refine ensures_bind (ensures_modifyState (ensures_ite (fun _ => ensures_pure hc) fun _ => ?_))
    refine (kept_of_same (always_forM_mem hlast _ fun k hk => ?_) ?_).bind (fun _ w₁ hc₁ => ?_) fun _ h => h
    · exact (lenient_other (htile _ hc k hk)).always_modifyClient fun _ => rfl
    · exact hc
    refine (kept_of_same (always_ite (always_forM_mem hlast _ fun k hk => ?_) (hlast.pure _)) hc₁).bind
      (fun _ w₂ hc₂ => ?_) fun _ h => h
    · have hother := lenient_other (htile _ hc k hk)
      exact hother.bind (always_attempt (hother.always_ensureSizeHintsValid env)) fun _ => hother.pure _
    refine ensures_bind (ensures_getState (kept_of_same (always_forM hlast (fun e => ?_) _) hc₂))
    exact ((lenient_other (htile _ hc₂ _ e.1.2)).returns_applyLayoutResult env _ e.2).always

theorem refitMaximizedClients_kept (m : MonitorKey) : Ensures (env.refitMaximizedClients m) w (fun _ => IsStill key c) (IsStill key c) := by
  refine ensures_bind (ensures_getState ?_)
  cases env.maximizeWorkArea w.state m with
  | none => exact ensures_pure hc
  | some area =>
    refine kept_of_same (always_forM_mem (lasting_same key) _ fun k hk => ?_) hc
    refine ((lenient_other ?_).returns_refitMaximizedClient env area).always
    rintro rfl
    have hrefits := (mem_filter.1 hk).2
    unfold ModeEnv.refits isMaximizeRealized at hrefits
    rw [hc, any_some, h.unmaximized] at hrefits
    cases hrefits

theorem placeMonitor_kept (m : MonitorKey) : Ensures (env.placeMonitor m) w (fun _ => IsStill key c) (IsStill key c) :=
  (arrangemon_kept h hc m).bind (fun _ _ hc => (refitMaximizedClients_kept h hc m).bind
    (fun _ _ hc => ensures_bind (ensures_ask (ensures_pure hc))) fun _ h => h) fun _ h => h

end

/-- An arrange of its monitor shows a window that is in view and parks any other; where it rests stays. -/
theorem arrange_homed (hn : NoHints env key) (h : AtHome key mon r sticky w.state) :
    Ensures (env.arrange (some mon)) w (fun _ => HomedIn key mon r sticky) E := by
  obtain ⟨c, hc, hr⟩ := h.client
  obtain ⟨m, hm, hi⟩ := h.monitor
  have hstart : Passing key mon r sticky c w.state w := ⟨⟨c, hc, hr, rfl⟩, .refl _⟩
  have hpass := showhide_pass hn hm hi ((w.state.monitorStack.get? mon).getD []) w hstart
  refine ensures_bind (ensures_getState ?_)
  refine ensures_bind (ensures_bind (ensures_bind (ensures_getState (hpass.mono ?_ fun _ h => h.elim))))
  rintro _ w₁ ⟨hp, hdone⟩
  obtain ⟨c₁, hc₁, hr₁, hst⟩ := hp.client
  obtain ⟨c', hc', hpark⟩ := hdone (.inl h.focusStack)
  cases hc₁.symm.trans hc'
  refine ensures_pure (ensures_bind (ensures_bind ?_))
  refine (((arranging_arranged env).syncSecondaryBarPosition mon).ensures (syncSecondaryBarPosition_kept hr₁ hc₁ mon)).mono
    (fun _ w₂ ⟨ha₂, hc₂⟩ => ?_) fun _ h => h
  refine ensures_pure (ensures_bind ?_)
  refine (((arranging_arranged env).placeMonitor mon).ensures (placeMonitor_kept hr₁ hc₂ mon)).mono
    (fun _ w₃ ⟨ha₃, hkeep⟩ => ensures_pure ?_) fun _ h => h
  have harranged := (hp.arranged.trans ha₂).trans ha₃
  have hhome : AtHome key mon r sticky w₃.state := h.of_steady harranged.steady ⟨c₁, hkeep, hr₁⟩
  obtain ⟨m', hm', -, hact⟩ := of_outlook (harranged.monitors mon) hm
  refine ⟨hhome, fun c₂ hc₂ hv => ?_, fun c₂ hc₂ hid => ?_⟩
  · cases hkeep.symm.trans hc₂
    rw [visibleByKey_eq hkeep hr₁.mon hm', visibleIn_of_standing hst, hact] at hv
    rw [hv] at hpark
    exact not_isSome_iff_eq_none.1 (by rw [hpark]; exact Bool.false_ne_true)
  · cases hkeep.symm.trans hc₂
    rw [hpark, ← visibleIn_of_standing hst]
    unfold visibleIn
    rw [hid, Bool.or_true]
    rfl

end Jwm
