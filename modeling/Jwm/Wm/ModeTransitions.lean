/-
Each mode transition of a resting window leaves it resting: the lemmas follow the transitions of
`WindowModes` one by one. Minimizing is the only one that asks for the focus.
-/
import Jwm.Wm.RestingRect
import Jwm.Wm.SessionPlacement

namespace Jwm

variable {env : ModeEnv} {key : ClientKey} {mon : MonitorKey} {r : Rect} {sticky : Bool}

/-! ## Putting the pieces together -/

/-- Parked exactly as a window must be on a monitor that views the tags `active`. -/
structure WMClient.InPlace (c : WMClient) (active : BitVec 32) : Prop where
  shown : c.visibleIn active = true → c.geometry.hiddenRestoreRect = none
  minimized : c.state.isHidden = true → c.geometry.hiddenRestoreRect.isSome = true

variable {s : WMState} {c : WMClient} {m : WMMonitor}

theorem Homed.inPlace (h : Homed key mon r sticky s)
    (hc : s.clients.get? key = some c) (hmon : c.mon = some mon) (hm : s.monitors.get? mon = some m) :
    c.InPlace m.activeTags :=
  ⟨fun hv => h.shown c hc (by rw [visibleByKey_eq hc hmon hm]; exact hv), h.minimized c hc⟩

variable {s' : WMState} {E : ModeWorld → Prop} {g : ClientGeometry} {c' : WMClient} {fullscreen : Bool}

/-- A steady step rests the window again if it leaves a resting record in place. -/
theorem Homed.of_steady (h : AtHome key mon r sticky s)
    (hm : s.monitors.get? mon = some m) (hs : Steady s s') (hc : s'.clients.get? key = some c)
    (hr : Rests mon r sticky c) (hp : c.InPlace m.activeTags) : Homed key mon r sticky s' := by
  obtain ⟨m', hm', -, hact⟩ := WMMonitor.of_outlook (hs.monitors mon) hm
  refine ⟨h.of_steady hs ⟨c, hc, hr⟩, fun c' hc' hv => ?_, fun c' hc' hid => ?_⟩
  · cases hc.symm.trans hc'
    rw [visibleByKey_eq hc hr.mon hm', hact] at hv
    exact hp.shown hv
  · cases hc.symm.trans hc'
    exact hp.minimized hid

theorem Intact.homed (h : Homed key mon r sticky s)
    (hc : s.clients.get? key = some c) (hi : Intact key c s s') : Homed key mon r sticky s' := by
  obtain ⟨c', hc', hr⟩ := h.client
  cases hc.symm.trans hc'
  obtain ⟨m, hm, -⟩ := h.monitor
  exact .of_steady h.toAtHome hm hi.steady hi.client hr (h.inPlace hc hr.mon hm)

theorem reorder_clients (s : WMState) (key : ClientKey) : (reorderClientInMonitorGroups s key).clients = s.clients := by
  rw [reorder_frame]

variable {w : ModeWorld}

theorem ensures_call {Q : Unit → ModeWorld → Prop}
    (h : Q () { w with asked := w.asked + 1 }) (he : E { w with asked := w.asked + 1 }) : Ensures env.call w Q E := by
  refine ensures_bind (ensures_ask ?_)
  exact ensures_ite (fun _ => ensures_pure h) fun _ => ensures_throw he

section

variable (h : Rests mon r sticky c)
include h

theorem Rests.home_fullscreen (hf : c.state.isFullscreen = true) :
    c.geometry.oldRect = r := by
  have hh := h.home
  unfold WMClient.home at hh
  rw [hf, if_pos rfl] at hh
  exact hh

theorem Rests.home_pip (hp : c.state.isPip = true) : c.geometry.floatingRect = r := by
  have hf : c.state.isFullscreen = false := eq_false_of_ne_true fun hf => h.exclusive ⟨hf, hp⟩
  have hh := h.home
  unfold WMClient.home at hh
  rw [hf, if_neg Bool.false_ne_true, hp, if_pos rfl] at hh
  exact hh

theorem Rests.home_plain (hf : c.state.isFullscreen = false)
    (hp : c.state.isPip = false) : c.geometry.visibleRect = r := by
  have hh := h.home
  unfold WMClient.home at hh
  rw [hf, if_neg Bool.false_ne_true, hp, if_neg Bool.false_ne_true] at hh
  exact hh

/-! ## Entering fullscreen -/

/-- The record after `coverMonitor` rests, and is in place, whenever a hidden window is out of view and any
other one is not parked. -/
theorem rests_enterFullscreen (hf : c.state.isFullscreen = false)
    (hp : c.state.isPip = false) (hidden : Bool)
    (hold : g.oldRect = if hidden then c.geometry.visibleRect else c.geometry.rect)
    (hpark : g.hiddenX.isSome = g.hiddenRestoreRect.isSome)
    (hshown : hidden = false → c.geometry.hiddenRestoreRect = none) :
    Rests mon r sticky { c.enterFullscreen hidden with geometry := g } where
  mon := h.mon
  exclusive hx := by
    have hx2 : c.state.isPip = true := hx.2
    rw [hp] at hx2
    cases hx2
  floating := rfl
  returns := by
    show (if (true || c.state.isPip) = true then c.state.isFloating else true) = true
    rw [Bool.true_or, if_pos rfl]
    exact h.floating
  sticky := h.sticky
  shows := h.shows
  home := by
    show g.oldRect = r
    rw [hold]
    cases hidden with
    | true => exact h.home_plain hf hp
    | false => exact h.home_unparked (hshown rfl) hf hp
  parked := hpark
  unmaximized := h.unmaximized
  dock := h.dock
  swallowed := h.swallowed
  hints := h.hints

end

open WMClient

/-- Whether a window counts as hidden when it enters fullscreen, and what follows for its parking place. -/
theorem hidden_inPlace (h : Homed key mon r sticky s)
    (hc : s.clients.get? key = some c) (hmon : c.mon = some mon) (hm : s.monitors.get? mon = some m)
    (hin : c.state.isHidden = true ∨ env.restartAdopted key = true ∨ c.geometry.hiddenRestoreRect = none) :
    if (c.state.isHidden || env.restartClientOffView s key) then c.visibleIn m.activeTags = false
    else c.state.isHidden = false ∧ c.geometry.hiddenRestoreRect = none := by
  have hplace := h.inPlace hc hmon hm
  have hvis := visibleByKey_eq hc hmon hm
  unfold ModeEnv.restartClientOffView
  rw [hvis]
  cases hid : c.state.isHidden with
  | true =>
    unfold visibleIn
    rw [hid, Bool.or_true]
    rfl
  | false =>
    cases hv : c.visibleIn m.activeTags with
    | true =>
      rw [Bool.not_true, Bool.and_false, Bool.or_false, if_neg Bool.false_ne_true]
      exact ⟨rfl, hplace.shown hv⟩
    | false =>
      rw [Bool.not_false, Bool.and_true, Bool.false_or]
      cases had : env.restartAdopted key with
      | true => rw [if_pos rfl]
      | false =>
        rw [if_neg Bool.false_ne_true]
        rcases hin with hx | hx | hx
        · rw [hid] at hx; cases hx
        · rw [had] at hx; cases hx
        · exact ⟨rfl, hx⟩

theorem coverMonitor_hidden (m : WMMonitor) (left : Int) : env.coverMonitor key (some m) true left = (do
    modifyClient key fun c => { c with geometry := c.geometry.parkAt m.rect (hiddenXLeftOfDesktop left m.rect.w) }
    env.call) := rfl

theorem coverMonitor_shown (m : WMMonitor) (left : Int) :
    env.coverMonitor key (some m) false left = env.resizeclient key m.rect := rfl

theorem enterFullscreen_homed (h : Homed key mon r sticky w.state)
    (hc : w.state.clients.get? key = some c) (hf : c.state.isFullscreen = false) (hp : c.state.isPip = false)
    (hin : c.state.isHidden = true ∨ env.restartAdopted key = true ∨ c.geometry.hiddenRestoreRect = none) :
    Ensures (env.enterFullscreen key) w (fun _ => HomedIn key mon r sticky) (fun _ => True) := by
  obtain ⟨c', hc', hr⟩ := h.client
  cases hc.symm.trans hc'
  obtain ⟨m, hm, -⟩ := h.monitor
  have hside := hidden_inPlace h hc hr.mon hm hin
  -- a resting record in place is enough
  suffices hrec : Ensures (env.enterFullscreen key) w
      (fun _ w' => ∃ c', w'.state.clients.get? key = some c' ∧ Rests mon r sticky c' ∧ c'.InPlace m.activeTags)
      (fun _ => True) from
    (hrec.and (steady_enterFullscreen env key w)).mono
      (fun _ w' ⟨⟨c', hc', hr', hp'⟩, hs⟩ => .of_steady h.toAtHome hm hs hc' hr' hp') fun _ _ => trivial
  refine ensures_bind (ensures_call ?_ trivial)
  refine ensures_bind (ensures_getClient hc (ensures_bind (ensures_getState ?_)))
  revert hside
  generalize (c.state.isHidden || env.restartClientOffView w.state key) = hidden
  intro hside
  refine ensures_bind (ensures_modifyClient (w := { w with asked := w.asked + 1 }) hc fun hget =>
    ensures_bind (ensures_modifyState ?_))
  rw [hr.mon, Option.bind_some, hm, Option.isSome_some, if_pos rfl]
  have hget : ∀ w' : ModeWorld, w'.state = reorderClientInMonitorGroups
      (w.state.modifyClient key (·.enterFullscreen hidden)) key →
      w'.state.clients.get? key = some (c.enterFullscreen hidden) := fun w' hw' => by
    rw [hw', reorder_clients]
    exact hget
  cases hidden with
  | true =>
    rw [coverMonitor_hidden]
    refine ensures_bind (ensures_bind (ensures_modifyClient (hget _ rfl) fun hpark => ensures_call ?_ trivial))
    refine ensures_call ⟨_, hpark, ?_, ?_, ?_⟩ trivial
    · exact rests_enterFullscreen hr hf hp true rfl rfl fun hx => by cases hx
    · intro hv
      cases hv.symm.trans hside
    · exact fun _ => rfl
  | false =>
    rw [if_neg Bool.false_ne_true] at hside
    rw [coverMonitor_shown]
    refine ensures_bind ?_
    refine (resizeclient_spec (hget _ rfl) m.rect).mono (fun _ w' hw' => ?_) fun _ _ => trivial
    refine ensures_call ⟨_, hw', ?_, ?_, ?_⟩ trivial
    · exact rests_enterFullscreen hr hf hp false rfl hr.parked fun _ => hside.2
    · exact fun _ => hside.2
    · intro hx
      cases hside.1.symm.trans hx

/-! ## Leaving fullscreen -/

/-- The window rests, with the flags of `c`. -/
structure HomedAs (key : ClientKey) (mon : MonitorKey) (r : Rect) (sticky : Bool) (c : WMClient) (s : WMState) : Prop
    extends Homed key mon r sticky s where
  flags : ∃ c', s.clients.get? key = some c' ∧ c'.standing = c.standing

theorem arrange_homedAs (hn : NoHints env key) (h : AtHome key mon r sticky w.state)
    (hc : w.state.clients.get? key = some c) :
    Ensures (env.arrange (some mon)) w (fun _ w' => HomedAs key mon r sticky c w'.state) E := by
  have harr : Ensures (env.arrange (some mon)) w (fun _ => HomedIn key mon r sticky) (fun _ => True) :=
    arrange_homed hn h
  refine ((returns_arrange env (some mon)).ensures harr).mono (fun _ w' ⟨ha, hh⟩ => ⟨hh, ?_⟩) fun _ h => h
  have hst := ha.clients key
  rw [hc] at hst
  exact Option.map_eq_some_iff.1 hst

theorem rests_leaveFullscreen (h : Rests mon r sticky c) (hf : c.state.isFullscreen = true)
    (hidden : Bool) (left : Int) (hv : g.visibleRect = r)
    (hpark : g.hiddenX.isSome = g.hiddenRestoreRect.isSome) :
    Rests mon r sticky { c.leaveFullscreen hidden left with geometry := g } := by
  have hp : c.state.isPip = false := eq_false_of_ne_true fun hp => h.exclusive ⟨hf, hp⟩
  have hold : c.state.oldState = true := by
    have hx := h.returns
    unfold restingFloating at hx
    rw [hf, Bool.true_or, if_pos rfl] at hx
    exact hx
  refine { mon := h.mon, exclusive := fun hx => Bool.false_ne_true hx.1, floating := hold, returns := ?_
           sticky := h.sticky, shows := h.shows, home := ?_, parked := hpark, unmaximized := h.unmaximized, dock := h.dock
           swallowed := h.swallowed, hints := h.hints }
  · show (if (false || c.state.isPip) = true then c.state.oldState else c.state.oldState) = true
    rw [hold, ite_self]
  · show (if false = true then _ else if c.state.isPip = true then _ else g.visibleRect) = r
    rw [if_neg Bool.false_ne_true, hp, if_neg Bool.false_ne_true, hv]

theorem leaveFullscreen_homed (hn : NoHints env key)
    (h : Homed key mon r sticky w.state) (hc : w.state.clients.get? key = some c) (hf : c.state.isFullscreen = true) :
    Ensures (env.leaveFullscreen key) w
      (fun _ w' => HomedAs key mon r sticky (c.leaveFullscreen false 0) w'.state) (fun _ => True) := by
  obtain ⟨c', hc', hr⟩ := h.client
  cases hc.symm.trans hc'
  obtain ⟨m, hm, -⟩ := h.monitor
  refine ensures_bind (ensures_call (ensures_bind (ensures_getState ?_)) trivial)
  generalize hhid : (!isClientVisibleByKey w.state key) = hidden
  generalize desktopLeftEdge w.state = left
  refine ensures_bind (ensures_modifyClient (w := { w with asked := w.asked + 1 }) hc fun hget =>
    ensures_bind (ensures_modifyState ?_))
  have hget : ∀ w' : ModeWorld, w'.state = reorderClientInMonitorGroups
      (w.state.modifyClient key (·.leaveFullscreen hidden left)) key →
      w'.state.clients.get? key = some (c.leaveFullscreen hidden left) := fun w' hw' => by
    rw [hw', reorder_clients]
    exact hget
  have hs : Steady w.state (reorderClientInMonitorGroups (w.state.modifyClient key (·.leaveFullscreen hidden left)) key) :=
    have hmod : Steady w.state (w.state.modifyClient key (·.leaveFullscreen hidden left)) :=
      steady_modifyClient key (f := (·.leaveFullscreen hidden left)) (fun _ => rfl) w
    hmod.trans (steady_reorder _ key)
  refine ensures_bind (ensures_getClient (hget _ rfl) ?_)
  -- whatever the configure wrote, a resting record is enough for the arrange
  have harrange : ∀ (w' : ModeWorld) (g : ClientGeometry), Steady w.state w'.state →
      w'.state.clients.get? key = some { c.leaveFullscreen hidden left with geometry := g } →
      Rests mon r sticky { c.leaveFullscreen hidden left with geometry := g } →
      Ensures (if (c.leaveFullscreen hidden left).mon.isSome then env.arrange (c.leaveFullscreen hidden left).mon
        else pure ()) w' (fun _ w' => HomedAs key mon r sticky (c.leaveFullscreen false 0) w'.state)
        (fun _ => True) := by
    intro w' g hs' hw' hr'
    have hmon : (c.leaveFullscreen hidden left).mon = some mon := hr.mon
    rw [hmon, Option.isSome_some, if_pos rfl]
    exact (arrange_homedAs hn (h.toAtHome.of_steady hs' ⟨_, hw', hr'⟩) hw').mono
      (fun _ _ hh => ⟨hh.toHomed, hh.flags⟩) fun _ h => h
  have hold := hr.home_fullscreen hf
  cases hidden with
  | true =>
    refine ensures_bind (ensures_ite (fun _ => ?_) fun hne => absurd rfl hne)
    refine ensures_call (harrange _ (c.leaveFullscreen true left).geometry hs (hget _ rfl) ?_) trivial
    exact rests_leaveFullscreen hr hf true left hold rfl
  | false =>
    have hnone : c.geometry.hiddenRestoreRect = none := h.shown c hc (by rw [← Bool.not_eq_false', hhid])
    refine ensures_bind (ensures_ite (fun hx => absurd hx Bool.false_ne_true) fun _ => ?_)
    refine ((resizeclient_spec (hget _ rfl) _).and ((lenient_steady key).always_resizeclient env _ _)).mono
      (fun _ w' ⟨hw', hs'⟩ => ?_) fun _ _ => trivial
    refine harrange w' _ (hs.trans hs') hw' (rests_leaveFullscreen hr hf false left ?_ hr.parked)
    show c.geometry.hiddenRestoreRect.getD c.geometry.oldRect = r
    rw [hnone, hold]
    rfl

/-! ## Picture-in-picture -/

/-- What a PiP transition to `target` has written when it comes to the regrouping. -/
structure PipConfigured (c : WMClient) (pip : Bool) (r target : Rect) (c' : WMClient) : Prop where
  standing : c'.standing = (if pip then c.enterPip else c.leavePip).standing
  hints : c'.sizeHints.Unset
  floating : c'.geometry.floatingRect = (if pip then c.enterPip else c.leavePip).geometry.floatingRect
  parked : c'.geometry.hiddenX.isSome = c'.geometry.hiddenRestoreRect.isSome
  /-- The target is taken over as it is when it is the resting rectangle. -/
  visible : target = r →
    c'.geometry.visibleRect = if c.state.isHidden then r else c.geometry.hiddenRestoreRect.getD r

theorem steady_pip (key : ClientKey) (pip : Bool) (w : ModeWorld) :
    Steady w.state (w.state.modifyClient key fun c => if pip then c.enterPip else c.leavePip) :=
  steady_modifyClient key (f := fun c => if pip then c.enterPip else c.leavePip) (fun c => by cases pip <;> rfl) w

theorem pip_record (c : WMClient) (pip : Bool) : (if pip then c.enterPip else c.leavePip).mon = c.mon ∧
      (if pip then c.enterPip else c.leavePip).sizeHints = c.sizeHints ∧
      (if pip then c.enterPip else c.leavePip).geometry.hiddenX = c.geometry.hiddenX ∧
      (if pip then c.enterPip else c.leavePip).geometry.hiddenRestoreRect = c.geometry.hiddenRestoreRect := by
  cases pip with
  | true =>
    refine ⟨rfl, rfl, ?_, ?_⟩
    · show (if _ then _ else _ : ClientGeometry).hiddenX = _
      split <;> rfl
    · show (if _ then _ else _ : ClientGeometry).hiddenRestoreRect = _
      split <;> rfl
  | false => exact ⟨rfl, rfl, rfl, rfl⟩

theorem configurePip_spec {c₀ : WMClient} (hc : w.state.clients.get? key = some c) (q : Rect) :
    Ensures (env.configurePip key c₀ q) w (fun _ w' => ∃ g, w'.state.clients.get? key = some { c with geometry := g } ∧
      g.floatingRect = c.geometry.floatingRect ∧
      (if c₀.state.isHidden then g.hiddenX.isSome = true ∧ g.hiddenRestoreRect = some q
        else g.hiddenX = c.geometry.hiddenX ∧ g.hiddenRestoreRect = c.geometry.hiddenRestoreRect ∧ g.rect = q))
      (fun _ => True) := by
  unfold ModeEnv.configurePip
  cases c₀.state.isHidden with
  | true =>
    refine ensures_bind (ensures_getState (ensures_bind (ensures_call ?_ trivial)))
    exact ensures_modifyClient (w := { w with asked := w.asked + 1 }) hc fun hget => ⟨_, hget, rfl, rfl, rfl⟩
  | false => exact (resizeclient_spec hc q).mono (fun _ w' hw' => ⟨_, hw', rfl, rfl, rfl, rfl⟩) fun _ _ => trivial

/-- A PiP transition whose record rests when it is configured leaves the window resting. -/
theorem togglePip_spec (hn : NoHints env key) (h : Homed key mon r sticky w.state)
    (hc : w.state.clients.get? key = some c) (pip : Bool)
    (hfinal : ∀ target c', env.pipTarget w.state c pip = .ok target → PipConfigured c pip r target c' →
      Rests mon r sticky c') :
    Ensures (env.togglePip key pip) w
      (fun _ w' => HomedAs key mon r sticky (if pip then c.enterPip else c.leavePip) w'.state) (fun _ => True) := by
  obtain ⟨c', hc', hr⟩ := h.client
  cases hc.symm.trans hc'
  obtain ⟨m, hm, hi⟩ := h.monitor
  obtain ⟨hrmon, hrhints, hrx, hrslot⟩ := pip_record c pip
  have hundo : ∀ w', Ensures (modifyClient key fun _ => c) w' (fun _ _ => True) (fun _ => True) :=
    fun w' => ensures_true _
  refine ensures_bind (ensures_getClient hc (ensures_bind (ensures_getState ?_)))
  cases ht : env.pipTarget w.state c pip with
  | error e => exact ensures_throw trivial
  | ok target =>
    refine ensures_bind (ensures_modifyClient (w := w) hc fun hget => ?_)
    have hs₁ := steady_pip key pip w
    -- the size constraints
    refine (ensures_rollingBack (F := fun _ => True) ((applysizehints_spec hn hget target).and
      ((lenient_steady key).always_applysizehints env target _) |>.mono (fun _ _ h => h) fun _ _ => trivial)
      fun w' _ => hundo w').bind (fun q w₂ ⟨⟨⟨c₂, hc₂, ha⟩, hq⟩, hs₂⟩ => ?_) fun _ h => h
    -- the Sticky flag
    refine (ensures_rollingBack (F := fun _ => True) (ensures_call (Q := fun _ w' => w'.state = w₂.state) rfl trivial)
      fun w' _ => hundo w').bind (fun _ w₃ hw₃ => ?_) fun _ h => h
    have hs₃ := hs₁.trans hs₂
    rw [← hw₃] at hc₂ hs₃
    -- the geometry
    refine (ensures_rollingBack (F := fun _ => True) ((configurePip_spec hc₂ q).and
      (steady_configurePip env key c q w₃) |>.mono (fun _ _ h => h) fun _ _ => trivial)
      fun w' _ => hundo w').bind (fun _ w₄ ⟨⟨g, hc₄, hfl, hslots⟩, hs₄⟩ => ?_) fun _ h => h
    refine ensures_bind (ensures_modifyState ?_)
    rw [hr.mon]
    have hq' : target = r → q = r := fun hx => by
      rw [hx] at hq
      refine hq (by rw [hrhints]; exact hr.hints) ⟨m, ?_, hi⟩
      rw [hrmon, hr.mon]
      exact hm
    have hconf : PipConfigured c pip r target { c₂ with geometry := g } := by
      refine ⟨ha.standing, ha.hints (by rw [hrhints]; exact hr.hints), by rw [← ha.geometry]; exact hfl, ?_, fun hx => ?_⟩
      · split at hslots
        · rw [hslots.1, hslots.2]; rfl
        · rw [hslots.1, hslots.2.1, ha.geometry, hrx, hrslot, hr.parked]
      · show g.hiddenRestoreRect.getD g.rect = _
        rw [hq' hx] at hslots
        cases hid : c.state.isHidden with
        | true =>
          rw [hid, if_pos rfl] at hslots
          rw [hslots.2]
          rfl
        | false =>
          rw [hid, if_neg Bool.false_ne_true] at hslots
          rw [hslots.2.1, hslots.2.2, ha.geometry, hrslot]
          rfl
    have hrests := hfinal target _ ht hconf
    have hget₅ : (reorderClientInMonitorGroups w₄.state key).clients.get? key = some { c₂ with geometry := g } := by
      rw [reorder_clients]
      exact hc₄
    have hhome : AtHome key mon r sticky (reorderClientInMonitorGroups w₄.state key) :=
      h.toAtHome.of_steady ((hs₃.trans hs₄).trans (steady_reorder _ key)) ⟨_, hget₅, hrests⟩
    refine (arrange_homedAs (w := { w₄ with state := reorderClientInMonitorGroups w₄.state key }) hn hhome hget₅).mono
      (fun _ w' hh => ⟨hh.toHomed, ?_⟩) fun _ h => h
    obtain ⟨c', hc', hst⟩ := hh.flags
    exact ⟨c', hc', hst.trans ha.standing⟩

theorem Rests.enterPip {target : Rect} (h : Rests mon r sticky c) (hf : c.state.isFullscreen = false)
    (hp : c.state.isPip = false) (hx : PipConfigured c true r target c') : Rests mon r sticky c' := by
  have hany : (c.state.maximizeRestoreTiled && c.state.maximizedAxes.any) = false := by
    rw [h.unmaximized]
    exact Bool.and_false _
  have hgeo : c.enterPip.geometry = { c.geometry with floatingRect := c.geometry.visibleRect } := by
    show (if (c.state.maximizeRestoreTiled && c.state.maximizedAxes.any) = true then _ else _) = _
    rw [hany]
    rfl
  have hhome : c'.home = r := by
    have hst := (eq_of_standing hx.standing).2
    have hpip : c'.state.isPip = true := by rw [hst]; rfl
    have hfs : c'.state.isFullscreen = false := by rw [hst]; exact hf
    unfold WMClient.home
    rw [hfs, if_neg Bool.false_ne_true, hpip, if_pos rfl, hx.floating, if_pos rfl, hgeo]
    exact h.home_plain hf hp
  have hbase : Rests mon r sticky c.enterPip := by
    refine { mon := h.mon, exclusive := fun hx => ?_, floating := rfl, returns := ?_, sticky := ?_
             shows := fun _ => rfl, home := ?_, parked := ?_, unmaximized := h.unmaximized, dock := h.dock
             swallowed := h.swallowed, hints := h.hints }
    · have hx1 : c.state.isFullscreen = true := hx.1
      rw [hf] at hx1
      cases hx1
    · show (if (c.state.isFullscreen || true) = true then c.state.isFloating else true) = true
      rw [Bool.or_true, if_pos rfl]
      exact h.floating
    · have hs := h.sticky
      unfold restingSticky at hs
      rw [hp, if_neg Bool.false_ne_true] at hs
      exact hs
    · show (if c.state.isFullscreen = true then _ else if true = true then c.enterPip.geometry.floatingRect else _) = r
      rw [hf, if_neg Bool.false_ne_true, if_pos rfl, hgeo]
      exact h.home_plain hf hp
    · rw [hgeo]
      exact h.parked
  exact hbase.of_standing hx.standing hx.hints hhome hx.parked

theorem Rests.pip_sticky (h : Rests mon r sticky c) (hp : c.state.isPip = true) :
    c.state.pipRestoreSticky = sticky := by
  have hs := h.sticky
  unfold restingSticky at hs
  rw [hp, if_pos rfl] at hs
  exact hs

theorem Rests.leavePip (h : Rests mon r sticky c) (hp : c.state.isPip = true)
    (hnone : c.state.isHidden = false → c.geometry.hiddenRestoreRect = none) (hx : PipConfigured c false r r c') :
    Rests mon r sticky c' := by
  have hf : c.state.isFullscreen = false := eq_false_of_ne_true fun hf => h.exclusive ⟨hf, hp⟩
  have hold : c.state.oldState = true := by
    have hr := h.returns
    unfold restingFloating at hr
    rw [hp, Bool.or_true, if_pos rfl] at hr
    exact hr
  have hst := (eq_of_standing hx.standing).2
  have hpip : c'.state.isPip = false := by rw [hst]; rfl
  have hfs : c'.state.isFullscreen = false := by rw [hst]; exact hf
  have hhome : c'.home = r := by
    unfold WMClient.home
    rw [hfs, if_neg Bool.false_ne_true, hpip, if_neg Bool.false_ne_true, hx.visible rfl]
    cases hid : c.state.isHidden with
    | true => rfl
    | false => rw [if_neg Bool.false_ne_true, hnone hid]; rfl
  -- the same flags over a geometry that rests at `r` already
  have hbase : Rests mon r sticky
      { c.leavePip with geometry := { c.geometry with hiddenRestoreRect := some r, hiddenX := some 0 } } := by
    refine { mon := h.mon, exclusive := fun hx => Bool.false_ne_true hx.2, floating := hold, returns := ?_
             sticky := h.pip_sticky hp, shows := fun hx => absurd hx Bool.false_ne_true, home := ?_, parked := rfl
             unmaximized := h.unmaximized, dock := h.dock, swallowed := h.swallowed, hints := h.hints }
    · show (if (c.state.isFullscreen || false) = true then c.state.oldState else c.state.oldState) = true
      rw [ite_self, hold]
    · show (if c.state.isFullscreen = true then _ else if false = true then _ else r) = r
      rw [hf, if_neg Bool.false_ne_true, if_neg Bool.false_ne_true]
  exact hbase.of_standing hx.standing hx.hints hhome hx.parked

section

variable (hn : NoHints env key) (h : Homed key mon r sticky w.state) (hc : w.state.clients.get? key = some c)
include hn h hc

theorem enterPip_homed (hf : c.state.isFullscreen = false) (hp : c.state.isPip = false) :
    Ensures (env.togglePip key true) w (fun _ => HomedIn key mon r sticky) (fun _ => True) := by
  obtain ⟨c', hc', hr⟩ := h.client
  cases hc.symm.trans hc'
  exact (togglePip_spec hn h hc true fun _ _ _ hx => hr.enterPip hf hp hx).mono (fun _ _ hh => hh.toHomed) fun _ h => h

theorem leavePip_homed (hp : c.state.isPip = true) :
    Ensures (env.togglePip key false) w (fun _ w' => HomedAs key mon r sticky c.leavePip w'.state) (fun _ => True) := by
  obtain ⟨c', hc', hr⟩ := h.client
  cases hc.symm.trans hc'
  obtain ⟨m, hm, hi⟩ := h.monitor
  refine togglePip_spec hn h hc false fun target c' ht hx => ?_
  have hreturn : ∀ area, c.pipReturn area = r := fun area => by
    unfold pipReturn
    rw [hr.unmaximized, hr.home_pip hp]
    exact if_neg (by rw [Bool.and_eq_true]; rintro ⟨-, hx⟩; cases hx)
  have htarget : target = r := by
    unfold ModeEnv.pipTarget at ht
    rw [if_neg Bool.false_ne_true, hreturn, validRestoreRect,
      if_pos ⟨by have := hi.sides.w.1; omega, by have := hi.sides.h.1; omega⟩] at ht
    cases ht
    rfl
  subst htarget
  refine hr.leavePip hp (fun hid => ?_) hx
  refine h.shown c hc ?_
  rw [visibleByKey_eq hc hr.mon hm]
  unfold visibleIn
  rw [hr.swallowed, hid, hr.shows hp]
  rfl

end

/-! ## The two setters -/

/-- In view once it is out of PiP: sticky at rest, or on a viewed tag. -/
def WMClient.restsInView (c : WMClient) (active : BitVec 32) : Bool := c.restingSticky || c.state.tags &&& active != 0

/-- A fullscreen request does not meet a window that is parked on an unviewed tag, unless it is being adopted from a restart.
-/
def EntersInView (env : ModeEnv) (key : ClientKey) (s : WMState) : Prop :=
  ∀ c m mon, s.clients.get? key = some c → c.mon = some mon → s.monitors.get? mon = some m →
    c.state.isFullscreen = true ∨ c.state.isHidden = true ∨ env.restartAdopted key = true ∨
      c.restsInView m.activeTags = true ∨ (c.state.isPip = false ∧ c.geometry.hiddenRestoreRect = none)

theorem unparked_of_restsInView (h : Homed key mon r sticky s)
    (hc : s.clients.get? key = some c) (hm : s.monitors.get? mon = some m) (hid : c.state.isHidden = false)
    (hp : c.state.isPip = false) (hv : c.restsInView m.activeTags = true) : c.geometry.hiddenRestoreRect = none := by
  obtain ⟨c', hc', hr⟩ := h.client
  cases hc.symm.trans hc'
  refine (h.inPlace hc hr.mon hm).shown ?_
  unfold restsInView restingSticky at hv
  rw [hp, if_neg Bool.false_ne_true] at hv
  unfold visibleIn
  rw [hr.swallowed, hid]
  exact hv

section

variable (hn : NoHints env key) (h : Homed key mon r sticky w.state)
include hn h

theorem setfullscreenOff_homed (hc : w.state.clients.get? key = some c) (hf : c.state.isFullscreen = true) :
    Ensures (env.setfullscreenOff key) w
      (fun _ w' => HomedAs key mon r sticky (c.leaveFullscreen false 0) w'.state) (fun _ => True) :=
  ensures_bind (ensures_getClient hc (ensures_ite (fun _ => leaveFullscreen_homed hn h hc hf) fun hne => absurd hf hne))

theorem finishPip_homed (hc : w.state.clients.get? key = some c) (hf : c.state.isFullscreen = false) (hp : c.state.isPip = true) :
    Ensures (env.finishPip key) w (fun _ w' => HomedAs key mon r sticky c.leavePip w'.state) (fun _ => True) := by
  refine ensures_bind (ensures_bind (ensures_getClient hc ?_))
  rw [hf, if_neg Bool.false_ne_true]
  refine ensures_pure (ensures_bind (ensures_getClient hc ?_))
  rw [hp, if_pos rfl]
  exact leavePip_homed hn h hc hp

theorem setfullscreenInner_homed (hin : fullscreen = true → EntersInView env key w.state) :
    Ensures (env.setfullscreenInner key fullscreen) w (fun _ => HomedIn key mon r sticky)
      (fun _ => True) := by
  obtain ⟨c, hc, hr⟩ := h.client
  obtain ⟨m, hm, -⟩ := h.monitor
  refine ensures_bind (ensures_getClient hc ?_)
  cases fullscreen with
  | false =>
    refine ensures_bind (ensures_pure ?_)
    cases hf : c.state.isFullscreen with
    | false => exact ensures_pure h
    | true => exact (leaveFullscreen_homed hn h hc hf).mono (fun _ _ hh => hh.toHomed) fun _ h => h
  | true =>
    have hview := hin rfl c m mon hc hr.mon hm
    cases hp : c.state.isPip with
    | false =>
      refine ensures_bind (ensures_pure ?_)
      cases hf : c.state.isFullscreen with
      | true => exact ensures_pure h
      | false =>
        refine enterFullscreen_homed h hc hf hp ?_
        rcases hview with hx | hx | hx | hx | hx
        · rw [hf] at hx; cases hx
        · exact .inl hx
        · exact .inr (.inl hx)
        · cases hid : c.state.isHidden with
          | true => exact .inl rfl
          | false => exact .inr (.inr (unparked_of_restsInView h hc hm hid hp hx))
        · exact .inr (.inr hx.2)
    | true =>
      have hf : c.state.isFullscreen = false := eq_false_of_ne_true fun hf => hr.exclusive ⟨hf, hp⟩
      refine ensures_bind (((finishPip_homed hn h hc hf hp).and (steady_finishPip env key w)).mono ?_ fun _ _ => trivial)
      rintro _ w' ⟨hh, hs⟩
      obtain ⟨c', hc', hst⟩ := hh.flags
      have hst' := (eq_of_standing hst).2
      have hf' : c'.state.isFullscreen = false := by rw [hst']; exact hf
      have hp' : c'.state.isPip = false := by rw [hst']; rfl
      have hid' : c'.state.isHidden = c.state.isHidden := by rw [hst']; rfl
      refine enterFullscreen_homed hh.toHomed hc' hf' hp' ?_
      rw [hid']
      rcases hview with hx | hx | hx | hx | hx
      · rw [hf] at hx; cases hx
      · exact .inl hx
      · exact .inr (.inl hx)
      · cases hid : c.state.isHidden with
        | true => exact .inl rfl
        | false =>
          obtain ⟨m', hm', -, hact⟩ := WMMonitor.of_outlook (hs.monitors mon) hm
          refine .inr (.inr (unparked_of_restsInView hh.toHomed hc' hm' (hid'.trans hid) hp' ?_))
          unfold restsInView restingSticky at hx ⊢
          rw [hp, if_pos rfl] at hx
          rw [hp', if_neg Bool.false_ne_true, hst', hact]
          exact hx
      · rw [hp] at hx; cases hx.1

theorem setfullscreen_homed (hin : fullscreen = true → EntersInView env key w.state) :
    Ensures (env.setfullscreen key fullscreen) w (fun _ => HomedIn key mon r sticky)
      (HomedIn key mon r sticky) := by
  obtain ⟨c, hc, hr⟩ := h.client
  refine (Ensures.and (Q := fun _ => HomedIn key mon r sticky) (E := fun _ => True) ?_
    (setfullscreen_intact env hc fullscreen)).mono (fun _ _ hh => hh.1) fun _ hh => hh.2.homed h hc
  refine ensures_bind (ensures_getClient hc (ensures_bind (ensures_getState ?_)))
  exact ensures_rollingBack (F := fun _ => True) (setfullscreenInner_homed hn h hin) fun w' _ => ensures_true _

theorem setClientPipInner_homed (pip : Bool) :
    Ensures (env.setClientPipInner key pip) w (fun _ => HomedIn key mon r sticky) (fun _ => True) := by
  obtain ⟨c, hc, hr⟩ := h.client
  refine ensures_bind (ensures_getClient hc ?_)
  -- once out of fullscreen
  have hgo : ∀ (w' : ModeWorld) c', Homed key mon r sticky w'.state → w'.state.clients.get? key = some c' →
      (pip = true → c'.state.isFullscreen = false) →
      Ensures (do
          let client ← getClient key
          if pip = client.state.isPip then pure false
          else do
            env.togglePip key pip
            pure true) w' (fun _ => HomedIn key mon r sticky) (fun _ => True) := by
    intro w' c' h' hc' hf'
    refine ensures_bind (ensures_getClient hc' (ensures_ite (fun _ => ensures_pure h') fun hne => ?_))
    cases pip with
    | true =>
      have hp' : c'.state.isPip = false := by
        exact eq_false_of_ne_true fun hp => absurd hp.symm hne
      exact (enterPip_homed hn h' hc' (hf' rfl) hp').bind (fun _ _ hh => ensures_pure hh) fun _ h => h
    | false =>
      have hp' : c'.state.isPip = true := by
        exact eq_true_of_ne_false fun hp => absurd hp.symm hne
      exact (leavePip_homed hn h' hc' hp').bind (fun _ _ hh => ensures_pure hh.toHomed) fun _ h => h
  refine ensures_bind (ensures_ite (fun hx => ?_) fun hx => ensures_pure (hgo w c h hc fun hp => ?_))
  · rw [Bool.and_eq_true] at hx
    refine (setfullscreenOff_homed hn h hc hx.2).mono (fun _ w' hh => ?_) fun _ h => h
    obtain ⟨c', hc', hst⟩ := hh.flags
    exact hgo w' c' hh.toHomed hc' fun _ => by rw [(eq_of_standing hst).2]; rfl
  · exact eq_false_of_ne_true fun hf => absurd (by rw [hp, hf]; rfl) hx

theorem setClientPip_homed (pip : Bool) : Ensures (env.setClientPip key pip) w (fun _ => HomedIn key mon r sticky)
      (HomedIn key mon r sticky) := by
  obtain ⟨c, hc, hr⟩ := h.client
  refine (Ensures.and (Q := fun _ => HomedIn key mon r sticky) (E := fun _ => True) ?_
    (setClientPip_intact env hc pip)).mono (fun _ _ hh => hh.1) fun _ hh => hh.2.homed h hc
  refine ensures_bind (ensures_getClient hc (ensures_bind (ensures_getState ?_)))
  exact ensures_rollingBack (F := fun _ => True) (setClientPipInner_homed hn h pip) fun w' _ => ensures_true _

end

end Jwm
