/-
The rest of a window's history: maximize transactions, minimizing and view changes keep the slots in order,
so that whatever happened to a window, it can be minimized and its snapshot read back.
-/
import Jwm.Wm.SlotHistory

namespace Jwm

open Option Bool

variable {env : ModeEnv} {key : ClientKey}

/-! ## Planning and committing -/

theorem innerExtent_pos (extent borderW : Int) : 0 < innerExtent extent borderW :=
  lt_of_lt_of_le (by decide) (le_max_right _ 1)

theorem maximizeTarget_sized {restore : Rect} (hr : restore.Sized) (area : Rect) (axes : MaximizeAxes) (borderW : Int) :
    (maximizeTarget restore area axes borderW).Sized := by
  have hw := innerExtent_pos area.w borderW
  have hh := innerExtent_pos area.h borderW
  obtain ⟨vert, horz⟩ := axes
  cases vert with
  | false =>
    cases horz with
    | false => exact hr
    | true => exact ⟨hw, hr.h⟩
  | true =>
    cases horz with
    | false => exact ⟨hr.w, hh⟩
    | true => exact ⟨hw, hh⟩

variable {resting r : Rect} {s : WMState} {α : Type} {w' : ModeWorld}

theorem initialRestoreRect_sized (hr : resting.Sized) (area : Rect) (borderW : Int) :
    (initialRestoreRect resting area borderW).Sized := by
  unfold initialRestoreRect
  dsimp only
  split
  · exact hr
  · constructor
    · exact lt_of_lt_of_le (by decide) (le_max_right _ 1)
    · exact lt_of_lt_of_le (by decide) (le_max_right _ 1)

theorem planMaximize_sized (input : MaximizeInput) (hr : input.resting.Sized)
    (hrestore : ∀ r, input.restore = some r → r.Sized) (hhint : ∀ r, input.restoreHint = some r → r.Sized)
    (next : MaximizeAxes) :
    (planMaximize input next).restingRect.Sized ∧ ∀ r, (planMaximize input next).restoreRect = some r → r.Sized := by
  unfold planMaximize
  split
  · exact ⟨hr, hrestore⟩
  · have hinit := initialRestoreRect_sized hr input.area input.borderW
    have hbase : Rect.Sized (if input.current.any then
        (input.restore.map fun restore => mirrorFreeAxes restore input.resting input.current).getD
          (initialRestoreRect input.resting input.area input.borderW)
        else input.restoreHint.getD (initialRestoreRect input.resting input.area input.borderW)) := by
      split
      · cases hx : input.restore with
        | none => exact hinit
        | some v => exact mirrorFreeAxes_sized (hrestore v hx) hr input.current
      · cases hx : input.restoreHint with
        | none => exact hinit
        | some v => exact hhint v hx
    dsimp only
    split
    · refine ⟨maximizeTarget_sized hbase _ _ _, fun r hr => ?_⟩
      cases hr
      exact hbase
    · exact ⟨hbase, fun r hr => by cases hr⟩

/-- Of the rectangles a commit writes the restore slot and, unless PiP has borrowed it, the floating slot. -/
theorem commitClient_geometry (c : WMClient) (plan : MaximizePlan) (slot : RestingSlot) (promote retile suspended : Bool)
    (anchor : Option ClientKey) :
    ∃ floating, (commitClient c plan slot promote retile suspended anchor).geometry =
      { c.geometry with maximizeRestoreRect := plan.restoreRect, floatingRect := floating } ∧
      (slot = .pipReturn → floating = c.geometry.floatingRect) := by
  have hunset : (slot != .pipReturn) = true → slot = .pipReturn → False := by
    rintro hslot rfl
    exact absurd rfl (bne_iff_ne.1 hslot)
  unfold commitClient
  dsimp only
  generalize ClientState.maximizeRestoreTiled _ = tiled
  cases hslot : (slot != .pipReturn) && !tiled with
  | false => exact ⟨c.geometry.floatingRect, rfl, fun _ => rfl⟩
  | true =>
    have hne := hunset (and_eq_true_iff.1 hslot).1
    cases plan.restoreRect with
    | some r => exact ⟨r, rfl, fun h => (hne h).elim⟩
    | none =>
      cases retile with
      | true => exact ⟨c.geometry.floatingRect, rfl, fun _ => rfl⟩
      | false => exact ⟨plan.restingRect, rfl, fun h => (hne h).elim⟩

theorem commitClient_flags (c : WMClient) (plan : MaximizePlan) (slot : RestingSlot) (promote retile suspended : Bool)
    (anchor : Option ClientKey) :
    let c' := commitClient c plan slot promote retile suspended anchor
    c'.state.isFullscreen = c.state.isFullscreen ∧ c'.state.isPip = c.state.isPip ∧
      c'.state.pipRestoreSticky = c.state.pipRestoreSticky ∧
      c'.state.isFloating = ((c.state.isFloating || promote) && (!retile || suspended)) ∧
      c'.state.isDragFloating = (c.state.isDragFloating && !promote && (!retile || suspended)) ∧
      c'.state.oldState = (c.state.oldState && (!retile || !suspended)) ∧
      c'.state.maximizeRestoreTiled = ((c.state.maximizeRestoreTiled || promote) && plan.axes.any) := by
  unfold commitClient
  generalize plan.axes.any = any
  cases any <;> cases promote <;> cases retile <;> cases suspended <;> simp [ClientState.setMaximizedAxes]

variable {c : WMClient}

open WMClient

/-- A commit keeps the slots in order: a promotion and a retile end dragging, and nothing is written to a
slot PiP has borrowed. -/
theorem Sound.commitClient (h : Sound c) {plan : MaximizePlan}
    (hplan : ∀ r, plan.restoreRect = some r → r.Sized) {parked promote : Bool} (anchor : Option ClientKey) :
    Sound (Jwm.commitClient c plan (restingSlot c.state.isFullscreen c.state.isPip parked) promote
      (!plan.axes.any && c.state.maximizeRestoreTiled) (c.state.isFullscreen || c.state.isPip) anchor) := by
  obtain ⟨floating, hg, hfloat⟩ := commitClient_geometry c plan (restingSlot c.state.isFullscreen c.state.isPip parked)
    promote (!plan.axes.any && c.state.maximizeRestoreTiled) (c.state.isFullscreen || c.state.isPip) anchor
  obtain ⟨hfs, hpip, hsticky, hfl, hdrag, hold, htiled⟩ := commitClient_flags c plan
    (restingSlot c.state.isFullscreen c.state.isPip parked) promote (!plan.axes.any && c.state.maximizeRestoreTiled)
    (c.state.isFullscreen || c.state.isPip) anchor
  refine ⟨?_, ?_, ?_, ?_, fun hp => ?_, fun hp => ?_, fun hx => ?_, fun hp => ?_, fun hd => ?_⟩
  · rw [hg]; exact h.rect
  · rw [hg]; exact h.parked
  · rw [hg]; exact h.old
  · rw [hg]; exact hplan
  · rw [hpip] at hp
    rw [hg]
    have hslot : restingSlot c.state.isFullscreen c.state.isPip parked = .pipReturn := by
      rw [h.exclusive hp, hp]
      rfl
    rw [hfloat hslot]
    exact h.lent hp
  · rw [hpip] at hp
    rw [hfs]
    exact h.exclusive hp
  · rw [hfs, hpip] at hx
    have hsusp : (c.state.isFullscreen || c.state.isPip) = true := by rwa [or_eq_true]
    rw [hfl, h.floats hx, hsusp]
    simp
  · rw [hpip] at hp
    rw [hsticky]
    exact h.sticky hp
  · -- still dragging: neither promoted nor retiled
    rw [hdrag] at hd
    simp only [and_eq_true, not_eq_true', or_eq_true] at hd
    obtain ⟨⟨hd, hprom⟩, -⟩ := hd
    obtain ⟨hr, ht⟩ := h.drag hd
    have hretile : (!plan.axes.any && c.state.maximizeRestoreTiled) = false := by rw [ht, Bool.and_false]
    refine ⟨?_, by rw [htiled, ht, hprom]; rfl⟩
    unfold restingFloating at hr ⊢
    rw [hfs, hpip, hold, hfl, hprom, hretile]
    simpa using hr

theorem commitMaximize_spec (hc : s.clients.get? key = some c)
    (admission : MaximizeAdmission) (plan : MaximizePlan) (slot : RestingSlot) :
    ∃ s' anchor, commitMaximize s key admission plan slot = some s' ∧ s'.monitors = s.monitors ∧
      s'.clients.get? key = some (commitClient c plan slot (admission == .promote)
        (!plan.axes.any && c.state.maximizeRestoreTiled) (c.state.isFullscreen || c.state.isPip) anchor) := by
  unfold commitMaximize
  rw [hc]
  dsimp only
  generalize (if ((admission == .promote) && _) = true then _ else _ : Option ClientKey) = anchor
  generalize hd : commitClient c plan slot (admission == .promote) (!plan.axes.any && c.state.maximizeRestoreTiled)
    (c.state.isFullscreen || c.state.isPip) anchor = d
  have hget : (s.modifyClient key fun _ => d).clients.get? key = some d := by
    rw [WMState.modifyClient_get?_of hc, if_pos rfl]
  -- whether or not it moves in the list
  have hmove : ∀ back : Option WMState, (∀ s', back = some s' → s'.monitors = s.monitors ∧
        s'.clients = (s.modifyClient key fun _ => d).clients) →
      (back.getD (reorderClientInMonitorGroups (s.modifyClient key fun _ => d) key)).monitors = s.monitors ∧
      (back.getD (reorderClientInMonitorGroups (s.modifyClient key fun _ => d) key)).clients.get? key = some d := by
    rintro (_ | s') hback
    · exact ⟨reorder_monitors _ key, by rw [← hget, getD_none, reorder_clients]⟩
    · obtain ⟨hm, hcl⟩ := hback s' rfl
      exact ⟨hm, by rw [← hget, getD_some, hcl]⟩
  split
  · refine ⟨_, anchor, rfl, ?_⟩
    rw [hd]
    refine hmove _ ?_
    rintro s' hs'
    split at hs'
    · obtain ⟨mon, -, hr⟩ := bind_eq_some_iff.1 hs'
      obtain ⟨list, a, t, b, -, -, -, -, rfl⟩ := retile_some hr
      exact ⟨rfl, rfl⟩
    · cases hs'
  · exact ⟨_, anchor, rfl, rfl, by rw [hget, hd]⟩

/-! ## Maximize transactions -/

theorem restingRect_sized (h : Sound c) (parked : Bool) :
    (c.restingRect (restingSlot c.state.isFullscreen c.state.isPip parked)).1.Sized := by
  unfold restingSlot
  split
  · exact h.old
  · split
    · rename_i hp
      have hlent := h.lent hp
      show Rect.Sized (if _ then _ else _)
      split
      · cases hr : c.geometry.maximizeRestoreRect with
        | none => exact hlent
        | some r => exact h.restore r hr
      · exact hlent
    · split
      · exact h.visible
      · exact h.rect

theorem keepsSound_configureResting (c : WMClient) (slot : RestingSlot) (hr : resting.Sized) (retile floatLayout : Bool) :
    Always (KeepsSound key) (env.configureResting key c slot resting retile floatLayout) := by
  have hR := patient_keepsSound key
  cases slot with
  | live =>
    refine always_ite (always_ite (keepsSound_resizeclient key hr) (hR.pure ())) fun w => ?_
    refine (applysizehints_sized key key resting w).bind (fun q w₁ ⟨hq, h₁⟩ => ?_) fun _ h => h
    exact ((always_ite (keepsSound_resizeclient key hq) (hR.pure ())) w₁).mono (fun _ _ h => hR.trans h₁ h)
      fun _ h => hR.trans h₁ h
  | hiddenRestore =>
    intro w
    have hq : Ensures (if retile then pure resting else env.applysizehints key resting) w
        (fun q w' => q.Sized ∧ KeepsSound key w w') (KeepsSound key w) :=
      ensures_ite (fun _ => ensures_pure ⟨hr, hR.refl w⟩) fun _ => applysizehints_sized key key resting w
    refine hq.bind (fun q w₁ ⟨hq, h₁⟩ => ?_) fun _ h => h
    refine Ensures.mono ((hR.bind hR.always_getState fun s => hR.bind
      (keepsSound_modifyClient key fun c => tended_parkAt c (fun _ => hq) _) fun _ => hR.always_call env) w₁)
      (fun _ _ h => hR.trans h₁ h) fun _ h => hR.trans h₁ h
  | fullscreenReturn =>
    exact keepsSound_modifyClient key fun c => .of_geometry rfl (fun h => h.rect) (fun h => h.parked) (fun _ => hr)
      (fun h => h.restore) fun _ => id
  | pipReturn =>
    exact always_ite (keepsSound_modifyClient key fun c => .of_geometry rfl (fun h => h.rect) (fun h => h.parked)
      (fun h => h.old) (fun h => h.restore) fun _ _ => hr) (hR.pure ())

/-- The window is there, on monitors that have a size. -/
structure Present (key : ClientKey) (w : ModeWorld) : Prop where
  window : ∃ c, w.state.clients.get? key = some c
  screens : Screens w.state

variable {w : ModeWorld}

theorem Reaches.present (h : Reaches key c w) : Present key w := by
  obtain ⟨c', hc', -⟩ := h.window
  exact ⟨⟨c', hc'⟩, h.screens⟩

open ModeEnv

theorem installSnapshot_sound (h : Present key w) (hc : Sound c)
    (order : Option (List ClientKey)) {E : ModeWorld → Prop} :
    Ensures (installSnapshot key c order) w (fun _ => SoundAt key) E := by
  obtain ⟨c₀, hc₀⟩ := h.window
  refine ensures_bind (ensures_modifyState ?_)
  have hget : (w.state.modifyClient key fun _ => c).clients.get? key = some c := by
    rw [WMState.modifyClient_get?_of hc₀, if_pos rfl]
  cases c.mon with
  | none => exact ensures_pure ⟨⟨c, hget, hc⟩, h.screens⟩
  | some mon =>
    cases order with
    | none => exact ensures_pure ⟨⟨c, hget, hc⟩, h.screens⟩
    | some order => exact ensures_modifyState ⟨⟨c, hget, hc⟩, h.screens⟩

section

variable (h : SoundAt key w)
include h

theorem withMaximizeRollback_sound {step : Modes α} (hstep : Ensures step w (fun _ => SoundAt key) (Present key)) :
    Ensures (env.withMaximizeRollback key step) w (fun _ => SoundAt key) (SoundAt key) := by
  obtain ⟨c, hc, hsound⟩ := h.window
  refine ensures_bind (ensures_getClient hc (ensures_bind (ensures_getState ?_)))
  refine ensures_rollingBack hstep fun w' h' => ?_
  refine (installSnapshot_sound h' hsound _).bind (fun _ w₁ h₁ => ?_) fun _ h => h
  obtain ⟨c₁, hc₁, -⟩ := h₁.window
  have hreach : Reaches key c₁ w₁ := ⟨⟨c₁, hc₁, .refl c₁⟩, h₁.screens⟩
  exact ((arranging_keepsSound env key).arrange c.mon w₁).bind
    (fun _ w₂ h₂ => installSnapshot_sound (h₂.reaches hreach).present hsound _) fun _ h => h.elim

theorem setClientMaximizedInner_sound (next : MaximizeAxes) (origin : MaximizeOrigin) :
    Ensures (env.setClientMaximizedInner key next origin none) w (fun _ => SoundAt key) (Present key) := by
  obtain ⟨c, hc, hsound⟩ := h.window
  have hR := patient_keepsSound key
  refine ensures_bind (ensures_getClient hc (ensures_bind (ensures_getState ?_)))
  dsimp only
  generalize admitMaximize c.state.maximizedAxes next (env.maximizeFacts w.state c) origin = admission
  refine ensures_ite (fun _ => ?_) fun _ => ?_
  · exact ensures_bind (ensures_call (ensures_pure ⟨h.window, h.screens⟩) ⟨⟨c, hc⟩, h.screens⟩)
  · have hresting := restingRect_sized hsound (c.state.isHidden || c.geometry.hiddenX.isSome)
    generalize hslot : restingSlot c.state.isFullscreen c.state.isPip (c.state.isHidden || c.geometry.hiddenX.isSome) =
      slot at hresting ⊢
    generalize c.restingRect slot = p at hresting ⊢
    obtain ⟨resting, borderW⟩ := p
    obtain ⟨hrest, hrestore⟩ := planMaximize_sized
      { current := c.state.maximizedAxes, restore := c.geometry.maximizeRestoreRect, restoreHint := none, resting
        area := (c.mon.bind (env.maximizeWorkArea w.state)).getD resting, borderW }
      hresting hsound.restore (fun r hr => by cases hr) next
    revert hrest hrestore
    generalize planMaximize _ next = plan
    intro hrest hrestore
    refine ensures_bind (ensures_call (ensures_bind (ensures_modifyState ?_)) ⟨⟨c, hc⟩, h.screens⟩)
    -- the commit
    obtain ⟨s', anchor, hcommit, hmons, hget⟩ := commitMaximize_spec hc admission plan slot
    rw [hcommit, getD_some]
    refine ensures_bind (ensures_getClient hget ?_)
    have hgo : Reaches key (commitClient c plan slot (admission == .promote)
        (!plan.axes.any && c.state.maximizeRestoreTiled) (c.state.isFullscreen || c.state.isPip) anchor)
        { w with state := s', asked := w.asked + 1 } := by
      refine ⟨⟨_, hget, .refl _⟩, ?_⟩
      unfold Screens
      rw [hmons]
      exact h.screens
    have hcommitted : Sound (commitClient c plan slot (admission == .promote)
        (!plan.axes.any && c.state.maximizeRestoreTiled) (c.state.isFullscreen || c.state.isPip) anchor) := by
      rw [← hslot]
      exact hsound.commitClient hrestore anchor
    refine ((hR.bind (keepsSound_configureResting c slot hrest _ _) fun _ =>
      hR.bind (always_ite (keepsSound_arrange c.mon) (hR.pure ())) fun _ => hR.pure true).reaches hgo).mono ?_ ?_
    · exact fun _ _ hh => hh.soundAt hcommitted
    · exact fun _ hh => hh.present

theorem setClientMaximized_sound (axes : MaximizeAxes) (origin : MaximizeOrigin) :
    Ensures (env.setClientMaximized key axes origin) w (fun _ => SoundAt key) (SoundAt key) :=
  withMaximizeRollback_sound h (setClientMaximizedInner_sound h axes origin)

end

theorem Sound.unmaximizedInPlace (h : Sound c) (hr : c.isMaximizeRealized = true) : Sound c.unmaximizedInPlace := by
  unfold isMaximizeRealized at hr
  simp only [and_eq_true, not_eq_true'] at hr
  obtain ⟨⟨⟨-, hfl⟩, hf⟩, hp⟩ := hr
  unfold WMClient.unmaximizedInPlace
  cases ht : c.state.maximizeRestoreTiled with
  | true =>
    refine ⟨h.rect, h.parked, h.old, (fun r hr => by cases hr), fun _ => h.rect, h.exclusive, h.floats, h.sticky,
      fun _ => ⟨?_, rfl⟩⟩
    show (if (c.state.isFullscreen || c.state.isPip) = true then c.state.oldState else c.state.isFloating) = true
    rw [hf, hp, if_neg (by decide)]
    exact hfl
  | false =>
    exact ⟨h.rect, h.parked, h.old, (fun r hr => by cases hr), fun _ => h.rect, h.exclusive, h.floats, h.sticky, h.drag⟩

theorem unmaximizeInPlace_sound (h : SoundAt key w) :
    Ensures (env.unmaximizeInPlace key) w (fun _ => SoundAt key) (SoundAt key) := by
  obtain ⟨c, hc, hsound⟩ := h.window
  refine ensures_bind (ensures_getState (ensures_ite (fun hr => ?_) fun _ => ensures_pure h))
  rw [hc, any_some] at hr
  refine withMaximizeRollback_sound h ?_
  refine ensures_bind (ensures_call (ensures_bind (ensures_modifyState ?_)) ⟨⟨c, hc⟩, h.screens⟩)
  have hgo : Reaches key c.unmaximizedInPlace
      { w with state := w.state.modifyClient key (·.unmaximizedInPlace), asked := w.asked + 1 } :=
    reaches_modify hc h.screens (·.unmaximizedInPlace) rfl rfl
  have hnow := hsound.unmaximizedInPlace hr
  exact ensures_bind (ensures_call (ensures_pure ⟨(hgo.soundAt hnow).window, hgo.screens⟩)
    ⟨hgo.present.window, hgo.screens⟩)

/-! ## Minimizing and views -/

/-- The window stays there with its slots in order. -/
abbrev StaysSound (key : ClientKey) (w w' : ModeWorld) : Prop := SoundAt key w → SoundAt key w'

theorem patient_staysSound (key : ClientKey) : Patient (StaysSound key) where
  refl _ h := h
  trans h h' hh := h' (h hh)
  ask _ h := ⟨h.window, h.screens⟩

theorem KeepsSound.stays (h : KeepsSound key w w') : StaysSound key w w' := by
  rintro ⟨⟨c, hc, hs⟩, hscreens⟩
  obtain ⟨c', hc', ht⟩ := h.window c hc
  exact ⟨⟨c', hc', ht.sound hs⟩, h.screens hscreens⟩

theorem Always.stays {x : Modes α} (hx : Always (KeepsSound key) x) : Always (StaysSound key) x :=
  fun w => (hx w).mono (fun _ _ h => h.stays) fun _ h => h.stays

theorem staysSound_modifyClient (k : ClientKey) {f : WMClient → WMClient} (hf : ∀ c, Sound c → Sound (f c)) (w : ModeWorld) :
    StaysSound key w { w with state := w.state.modifyClient k f } := by
  rintro ⟨⟨c, hc, hs⟩, hscreens⟩
  refine ⟨?_, hscreens⟩
  by_cases hk : key = k
  · subst hk
    exact ⟨f c, by rw [WMState.modifyClient_get?_of hc, if_pos rfl], hf c hs⟩
  · exact ⟨c, by rw [WMState.modifyClient_get?, if_neg hk, hc], hs⟩

theorem Refocus.keepsSound (hf : Refocus key w.state w'.state) : KeepsSound key w w' :=
  ⟨fun c hc => ⟨c, by rw [hf.clients, hc], .refl c⟩, fun hs => hs.of_outlook hf.monitors⟩

theorem keepsSound_focus (target : Option ClientKey) : Always (KeepsSound key) (env.focus target) := fun w =>
  (focus_refocus env target w).mono (fun _ _ h => h.keepsSound) fun _ h => h.keepsSound

theorem Sound.withHidden (h : Sound c) (hidden : Bool) (order : Nat) :
    Sound { c with state := { c.state with isHidden := hidden, minimizedOrder := order } } :=
  ⟨h.rect, h.parked, h.old, h.restore, h.lent, h.exclusive, h.floats, h.sticky, h.drag⟩

theorem staysSound_allocate : Always (StaysSound key) allocateMinimizedOrder := by
  have hof : ∀ {w w' : ModeWorld}, w'.state = w.state → StaysSound key w w' := fun h hs =>
    ⟨by rw [h]; exact hs.window, by rw [h]; exact hs.screens⟩
  exact fun w => (allocateMinimizedOrder_state w).mono (fun _ _ h => hof h) fun _ h => hof h

theorem staysSound_reconcile : Always (StaysSound key) (reconcileExistingMinimizedSnapshot key) := by
  have hR := patient_staysSound key
  refine hR.bind (hR.always_getClient key) fun c => always_ite
    (hR.bind staysSound_allocate fun order => always_modify fun w =>
      staysSound_modifyClient key (fun c hc => ?_) w) (hR.pure ())
  exact ⟨hc.rect, hc.parked, hc.old, hc.restore, hc.lent, hc.exclusive, hc.floats, hc.sticky, hc.drag⟩

theorem keepsSound_retryPark : Always (KeepsSound key) (env.retryX11MinimizedClientPark key) := by
  have hR := patient_keepsSound key
  have hcall := hR.always_call env
  refine always_ite (hR.bind (hR.always_ask env) fun _ => always_ite (hR.bind hR.always_getState fun _ =>
    hR.bind (hR.always_getClient key) fun _ => hR.bind (keepsSound_modifyClient key fun c => ?_) fun _ =>
      hR.bind hcall fun _ => hcall) (hR.pure ())) (hR.pure ())
  exact .of_geometry rfl (fun h => ⟨h.rect.w, h.rect.h⟩) (fun h => h.parked) (fun h => h.old) (fun h => h.restore) fun _ => id

theorem staysSound_settleMinimized (mon : Option MonitorKey) (selected : Bool) :
    Always (StaysSound key) (env.settleMinimized key mon selected) := by
  have hR := patient_staysSound key
  have hfocus := (@keepsSound_focus env key none).stays
  refine hR.bind (keepsSound_arrange mon).stays fun _ => hR.bind (hR.rollingBack ?_ (hR.always_verifyParked env)) fun _ =>
    hR.bind (always_ite hfocus (hR.pure ())) fun _ => hR.always_requestIconify env key
  exact always_ite (hR.bind (always_attempt hfocus) fun _ => hR.pure ()) (hR.pure ())

theorem screens_reinstallFocus (h : Screens s) (mon : Option MonitorKey) (previous : ModeEnv.RestorePoint) :
    Screens (reinstallFocus s mon previous) := by
  unfold reinstallFocus
  cases mon with
  | none => exact h
  | some m =>
    refine h.of_outlook fun m' => ?_
    cases previous.monitorStack with
    | none | some l => exact outlook_modify (f := (·.setSelectedClientForCurrentTag previous.targetSelection)) (fun _ => rfl) m'

theorem reinstallFocus_clients (s : WMState) (mon : Option MonitorKey) (previous : ModeEnv.RestorePoint) :
    (reinstallFocus s mon previous).clients = s.clients := by
  unfold reinstallFocus
  cases mon with
  | none => rfl
  | some m =>
    cases previous.monitorStack with
    | none | some l => rfl

theorem staysSound_rollback (previous : ModeEnv.RestorePoint) (repair : Bool) :
    Always (StaysSound key) (env.rollbackFailedMinimizedRestore key previous repair) := by
  have hR := patient_staysSound key
  intro w
  cases hc : w.state.clients.get? key with
  | none =>
    refine (ensures_true _).mono (fun _ w' _ h => ?_) fun w' _ h => ?_
    all_goals
      obtain ⟨c, hc', -⟩ := h.window
      cases hc.symm.trans hc'
  | some c =>
    refine ensures_bind (ensures_getState (ensures_bind (ensures_getClient hc ?_)))
    dsimp only
    generalize hiddenXLeftOfDesktop (desktopLeftEdge w.state) _ = x
    refine ensures_bind (ensures_modifyState ?_)
    have hpark : StaysSound key w { w with state := w.state.modifyClient key fun c' => { c' with
        geometry := c'.geometry.parkAt c.geometry.visibleRect x
        state := { c'.state with isHidden := true, minimizedOrder := previous.minimizedOrder } } } := by
      intro h
      obtain ⟨c', hc', hs⟩ := h.window
      cases hc.symm.trans hc'
      refine staysSound_modifyClient key (fun c' hs' => ?_) w h
      exact ((tended_parkAt c' (fun _ => hs.visible) x).sound hs').withHidden true previous.minimizedOrder
    refine Ensures.mono ((hR.bind (keepsSound_arrange c.mon).stays fun _ => hR.bind (always_ite ?_ (hR.pure ())) fun _ =>
      hR.bind (always_attempt (hR.always_requestIconify env key)) fun _ => hR.pure ()) _)
      (fun _ _ h => hR.trans hpark h) fun _ h => hR.trans hpark h
    refine hR.bind (always_modify fun w h => ⟨?_, screens_reinstallFocus h.screens c.mon previous⟩) fun _ =>
      hR.bind hR.always_getState fun _ => hR.bind (always_attempt (keepsSound_focus _).stays) fun _ => hR.pure ()
    rw [reinstallFocus_clients]
    exact h.window

theorem staysSound_settleRestored (mon : Option MonitorKey) (previous : ModeEnv.RestorePoint) :
    Always (StaysSound key) (env.settleRestored key mon previous) :=
  have hR := patient_staysSound key
  have hcall := hR.always_call env
  hR.bind (keepsSound_arrange mon).stays fun _ =>
    hR.bind (hR.rollingBack (staysSound_rollback previous false)
      (always_ite (hR.bind hcall fun _ => hcall) (hR.pure ()))) fun _ =>
    hR.bind (hR.rollingBack (staysSound_rollback previous true) (keepsSound_focus (some key)).stays) fun _ =>
    hR.rollingBack (staysSound_rollback previous true) hcall

theorem staysSound_setClientMinimized (minimized : Bool) :
    Always (StaysSound key) (env.setClientMinimized key minimized) := by
  have hR := patient_staysSound key
  refine hR.bind (hR.always_getClient key) fun _ => hR.bind (always_ite keepsSound_retryPark.stays (hR.pure ())) fun _ =>
    hR.bind staysSound_reconcile fun _ => hR.bind (hR.always_getClient key) fun c => hR.bind hR.always_getState fun s =>
    hR.bind (always_ite (hR.bind staysSound_allocate fun _ => hR.pure _) (hR.pure none)) fun order =>
    hR.bind (hR.always_publishMinimized env c _ minimized order) fun _ => always_ite ?_ ?_
  · exact hR.bind (hR.bind (always_ite (keepsSound_focus none).stays (hR.pure ())) fun _ => always_ite
      (hR.bind keepsSound_retryPark.stays fun _ => hR.always_requestIconify env key) (hR.pure ())) fun _ => hR.pure false
  · exact hR.bind (always_modify fun w => staysSound_modifyClient key (fun c hc => hc.withHidden minimized (order.getD 0)) w)
      fun _ => hR.bind (always_ite (staysSound_settleMinimized c.mon _)
        (staysSound_settleRestored c.mon _)) fun _ => hR.pure true

theorem staysSound_updateStickyTags (mon : MonitorKey) (w : ModeWorld) :
    StaysSound key w { w with state := updateStickyTags w.state mon } := by
  unfold updateStickyTags
  cases w.state.monitors.get? mon with
  | none => exact fun h => ⟨h.window, h.screens⟩
  | some monitor =>
    generalize (w.state.monitorClients.get? mon).getD [] = l
    have hrun : ∀ (l : List ClientKey) (w : ModeWorld), SoundAt key w →
        SoundAt key { w with state := l.foldl (fun s k => s.modifyClient k fun c =>
          if c.state.isSticky then { c with state := { c.state with tags := monitor.activeTags } } else c) w.state } := by
      intro l
      induction l with
      | nil => exact fun w h => ⟨h.window, h.screens⟩
      | cons k l ih =>
        intro w h
        refine ih { w with state := w.state.modifyClient k fun c =>
          if c.state.isSticky then { c with state := { c.state with tags := monitor.activeTags } } else c }
          (staysSound_modifyClient k (fun c hc => ?_) w h)
        split
        · exact ⟨hc.rect, hc.parked, hc.old, hc.restore, hc.lent, hc.exclusive, hc.floats, hc.sticky, hc.drag⟩
        · exact hc
    exact hrun l w

theorem staysSound_viewOnMonitor (mon : MonitorKey) (targetMask : BitVec 32) :
    Always (StaysSound key) (env.viewOnMonitor mon targetMask) := by
  have hR := patient_staysSound key
  refine hR.bind hR.always_getState fun _ => always_ite (hR.pure ()) (hR.bind (always_modify fun w h => ?_) fun _ =>
    hR.bind hR.always_getState fun s => hR.bind (always_modify fun w => staysSound_updateStickyTags mon w) fun _ =>
      hR.bind (always_ite (keepsSound_focus _).stays (hR.pure ())) fun _ =>
        hR.bind (keepsSound_arrange (some mon)).stays fun _ => hR.always_call env)
  refine ⟨h.window, ?_⟩
  rintro m' monitor hm
  have hm : (w.state.monitors.modify mon fun m => (m.viewTag targetMask false).1).get? m' = some monitor := hm
  rw [KeyMap.get?_modify] at hm
  split at hm
  · obtain ⟨m, hm₀, rfl⟩ := map_eq_some_iff.1 hm
    have hrect : (m.viewTag targetMask false).1.rect = m.rect := by
      unfold WMMonitor.rect
      rw [geometry_viewTag]
    rw [hrect]
    exact h.screens m' m hm₀
  · exact h.screens m' monitor hm

/-! ## The snapshot -/

def WMClient.slots (c : WMClient) : List Rect :=
  [c.geometry.rect, c.geometry.oldRect, c.geometry.floatingRect] ++ c.geometry.hiddenRestoreRect.toList ++
    c.geometry.maximizeRestoreRect.toList

/-- Every rectangle with a size lies in the band X11 can configure. -/
def Banded (c : WMClient) : Prop := ∀ r ∈ c.slots, 0 < r.w ∧ 0 < r.h → isConfigurable r = true

instance (c : WMClient) : Decidable (Banded c) := by
  unfold Banded
  infer_instance

theorem persistableRestoreRect_of (hs : r.Sized) (hc : isConfigurable r = true) : persistableRestoreRect r = some r := by
  unfold persistableRestoreRect validRestoreRect
  rw [if_pos ⟨hs.w, hs.h⟩, filter_some, if_pos hc]

theorem isConfigurable_of_persistable {v : Rect} (h : persistableRestoreRect r = some v) : isConfigurable v = true :=
  (filter_eq_some_iff.1 h).2

/-- A window with its slots in order can be minimized, and its snapshot is adoptable. -/
theorem Sound.snapshot (h : Sound c) (hb : Banded c) {order : Nat}
    (ho : 1 ≤ order ∧ order ≤ maxMinimizedRestoreOrder) (monitorNum : Option Int) :
    ∃ s, minimizedRestoreSnapshot c monitorNum order = some s ∧ s.Adoptable ∧ s.monitorNum = monitorNum.getD (-1) := by
  have hvisible : persistableRestoreRect c.geometry.visibleRect = some c.geometry.visibleRect := by
    refine persistableRestoreRect_of h.visible (hb _ ?_ ⟨h.visible.w, h.visible.h⟩)
    unfold slots ClientGeometry.visibleRect
    cases c.geometry.hiddenRestoreRect with
    | none | some r => simp
  have hold : persistableRestoreRect c.geometry.oldRect = some c.geometry.oldRect :=
    persistableRestoreRect_of h.old (hb _ (by simp [slots]) ⟨h.old.w, h.old.h⟩)
  -- PiP returns to the floating slot, whatever maximize remembers
  have hlent : c.state.isPip = true → persistableRestoreRect ((c.geometry.maximizeRestoreRect.filter fun _ =>
      c.state.maximizedAxes.any && !c.state.isPip && !c.state.maximizeRestoreTiled).getD c.geometry.floatingRect) =
        some c.geometry.floatingRect := by
    intro hp
    have hfl := h.lent hp
    have hnone : (c.geometry.maximizeRestoreRect.filter fun _ =>
        c.state.maximizedAxes.any && !c.state.isPip && !c.state.maximizeRestoreTiled) = none := by
      rw [hp]
      cases c.geometry.maximizeRestoreRect with
      | none => rfl
      | some r => simp
    rw [hnone, getD_none]
    exact persistableRestoreRect_of hfl (hb _ (by simp [slots]) ⟨hfl.w, hfl.h⟩)
  unfold minimizedRestoreSnapshot
  dsimp only
  rw [if_neg (by omega), hvisible, hold]
  dsimp only
  revert hlent
  generalize hfloat : persistableRestoreRect ((c.geometry.maximizeRestoreRect.filter fun _ =>
      c.state.maximizedAxes.any && !c.state.isPip && !c.state.maximizeRestoreTiled).getD c.geometry.floatingRect) = floating
  intro hlent
  have hpip : (c.state.isPip && floating.isNone) = false := by
    cases hp : c.state.isPip with
    | false => rfl
    | true =>
      rw [hlent hp]
      rfl
  rw [hpip, if_neg Bool.false_ne_true, isNone_some, Bool.and_false, if_neg Bool.false_ne_true]
  refine ⟨_, rfl, ⟨ho, fun hd => ?_, fun hp => ?_, fun hs => ?_, fun hf => ?_, ?_, ?_, ?_⟩, rfl⟩
  · obtain ⟨hr, ht⟩ := h.drag hd
    unfold restingFloating at hr
    rw [ht, Bool.and_false, Bool.not_false, Bool.and_true, ite_self]
    cases hx : c.state.isFullscreen || c.state.isPip with
    | true =>
      rw [or_eq_true] at hx
      exact h.floats hx
    | false =>
      rw [hx] at hr
      exact hr
  · have hp : c.state.isPip = true := hp
    refine ⟨?_, by dsimp only; rw [hlent hp]; rfl, by dsimp only; rw [h.exclusive hp]; rfl⟩
    rw [hp, Bool.or_true, if_pos rfl]
    exact h.floats (.inr hp)
  · exact eq_true_of_ne_false fun hp => absurd ((h.sticky hp).symm.trans hs) Bool.false_ne_true
  · cases hfs : c.state.isFullscreen with
    | true =>
      rw [Bool.true_or, if_pos rfl]
      exact h.floats (.inl hfs)
    | false =>
      rw [hfs] at hf
      cases hf
  · exact isConfigurable_of_persistable hvisible
  · rintro r rfl
    exact isConfigurable_of_persistable hfloat
  · intro r hr
    dsimp only at hr
    split at hr
    · cases hr
      exact isConfigurable_of_persistable hold
    · cases hr

theorem snapshot_unset (hp : c.state.isPip = true) (hf : ¬ c.geometry.floatingRect.Sized)
    (monitorNum : Option Int) (order : Nat) : minimizedRestoreSnapshot c monitorNum order = none := by
  have hnone : (c.geometry.maximizeRestoreRect.filter fun _ =>
      c.state.maximizedAxes.any && !c.state.isPip && !c.state.maximizeRestoreTiled) = none := by
    rw [hp]
    cases c.geometry.maximizeRestoreRect with
    | none => rfl
    | some r => simp
  have hfloat : persistableRestoreRect c.geometry.floatingRect = none := by
    unfold persistableRestoreRect validRestoreRect
    rw [if_neg fun h => hf ⟨h.1, h.2⟩]
    rfl
  unfold minimizedRestoreSnapshot
  dsimp only
  rw [hnone, getD_none, hfloat, hp]
  split
  · rfl
  · split
    · rfl
    · rfl

/-! ## Histories -/

/-- A request that hands slots around. -/
inductive HistoryEvent where
  | maximize (axes : MaximizeAxes) (origin : MaximizeOrigin)
  | unmaximizeInPlace
  | mode (e : ModeEvent)
deriving DecidableEq

namespace ModeEnv

variable (env : ModeEnv) (key : ClientKey) (mon : MonitorKey)

def performHistory : HistoryEvent → Modes Unit
  | .maximize axes origin => do let _ ← env.setClientMaximized key axes origin
  | .unmaximizeInPlace => do let _ ← env.unmaximizeInPlace key
  | .mode e => env.perform key mon e

def historyStep (w : ModeWorld) (e : HistoryEvent) : ModeWorld × Bool :=
  match env.performHistory key mon e w with
  | .ok _ w' => (w', true)
  | .error _ w' => (w', false)

end ModeEnv

/-- A request for PiP does not meet a promoted window whose floating slot was never set. -/
def LendsSlot (key : ClientKey) (w : ModeWorld) : HistoryEvent → Prop
  | .mode (.setClientPip true) => ∀ c, w.state.clients.get? key = some c → Lends c
  | _ => True

/-- A window as `manage` hands it over, in no mode; the floating slot may be unset. -/
structure NewlyManaged (c : WMClient) : Prop where
  rect : c.geometry.rect.Sized
  old : c.geometry.oldRect = c.geometry.rect
  unparked : c.geometry.hiddenRestoreRect = none
  unmaximized : c.geometry.maximizeRestoreRect = none ∧ c.state.maximizeRestoreTiled = false
  fullscreen : c.state.isFullscreen = false
  pip : c.state.isPip = false ∧ c.state.pipRestoreSticky = false
  drag : c.state.isDragFloating = false

theorem NewlyManaged.sound (h : NewlyManaged c) : Sound c where
  rect := h.rect
  parked r hr := by rw [h.unparked] at hr; cases hr
  old := by rw [h.old]; exact h.rect
  restore r hr := by rw [h.unmaximized.1] at hr; cases hr
  lent hp := absurd (h.pip.1.symm.trans hp) Bool.false_ne_true
  exclusive hp := absurd (h.pip.1.symm.trans hp) Bool.false_ne_true
  floats := by
    rintro (hx | hx)
    · exact absurd (h.fullscreen.symm.trans hx) Bool.false_ne_true
    · exact absurd (h.pip.1.symm.trans hx) Bool.false_ne_true
  sticky _ := h.pip.2
  drag hd := absurd (h.drag.symm.trans hd) Bool.false_ne_true

theorem historyStep_sound {mon : MonitorKey} {e : HistoryEvent}
    (h : SoundAt key w) (he : LendsSlot key w e) : SoundAt key (env.historyStep key mon w e).1 := by
  have hof : Ensures (env.performHistory key mon e) w (fun _ => SoundAt key) (SoundAt key) := by
    cases e with
    | maximize axes origin =>
      exact (setClientMaximized_sound h axes origin).bind (fun _ _ h => ensures_pure h) fun _ h => h
    | unmaximizeInPlace => exact (unmaximizeInPlace_sound h).bind (fun _ _ h => ensures_pure h) fun _ h => h
    | mode e =>
      cases e with
      | setfullscreen fullscreen => exact setfullscreen_sound h fullscreen
      | setClientPip pip =>
        refine (setClientPip_sound h pip fun hpip => ?_).bind (fun _ _ h => ensures_pure h) fun _ h => h
        subst hpip
        exact he
      | setClientMinimized minimized =>
        exact ((staysSound_setClientMinimized minimized) w).bind (fun _ _ hk => ensures_pure (hk h)) fun _ hk => hk h
      | view targetMask => exact ((staysSound_viewOnMonitor mon targetMask) w).mono (fun _ _ hk => hk h) fun _ hk => hk h
  unfold Ensures at hof
  unfold historyStep
  cases hx : env.performHistory key mon e w with
  | ok a w' | error a w' => rw [hx] at hof; exact hof

/-- Whatever modes a new window goes through and whatever calls of the backend fail, it can be minimized, and its snapshot is
written and read back, as long as no promoted window without a floating slot enters PiP. -/
theorem minimize_survives_history (env : ModeEnv) (key : ClientKey) (mon : MonitorKey) (w : ModeWorld) (c : WMClient)
    (hc : w.state.clients.get? key = some c) (hnew : NewlyManaged c) (hs : Screens w.state) :
    (∀ es, Along (LendsSlot key) (env.historyStep key mon) w es →
      ∃ c', (after (env.historyStep key mon) w es).state.clients.get? key = some c' ∧
        (Banded c' → ∀ order, 1 ≤ order → order ≤ maxMinimizedRestoreOrder → ∀ monitorNum : Option Int,
          (∀ n, monitorNum = some n → I32.min ≤ n ∧ n ≤ I32.max) →
          ∃ s words, minimizedRestoreSnapshot c' monitorNum order = some s ∧ encodeMinimizedRestoreV1 s = some words ∧
            ∀ (A : Type) [DecidableEq A] (cardinal : A), decodeMinimizedRestoreV1 cardinal
              { actualType := cardinal, format := 32, bytesAfter := 0, words } = some s)) ∧
    ∀ (A : Type) [DecidableEq A] (cardinal : A) (reply : PropertyReply A),
      (∀ s, decodeMinimizedRestoreV1 cardinal reply = some s → encodeMinimizedRestoreV1 s = some reply.words) ∧
      (∀ s, decodeMaximizeRestoreV1 cardinal reply = some s → encodeMaximizeRestoreV1 s = some reply.words) ∧
      (∀ s, decodeFloatingRestoreV1 cardinal reply = some s → encodeFloatingRestoreV1 s = some reply.words) := by
  refine ⟨fun es hes => ?_, fun A _ cardinal reply => ⟨fun s h => encodeMinimizedRestoreV1_decode h,
    fun s h => encodeMaximizeRestoreV1_decode h, fun s h => encodeFloatingRestoreV1_decode h⟩⟩
  have hstart : SoundAt key w := ⟨⟨c, hc, hnew.sound⟩, hs⟩
  have hrun := @trace_invariant_along _ _ _ (env.historyStep key mon) (LendsSlot key)
    (fun _ w => SoundAt key w) (fun _ _ _ he h => historyStep_sound h he) _ hstart _ hes
  obtain ⟨c', hc', hsound⟩ := hrun.window
  refine ⟨c', hc', fun hb order h1 h2 monitorNum hmon => ?_⟩
  obtain ⟨s, hs, hadopt, hnum⟩ := hsound.snapshot hb ⟨h1, h2⟩ monitorNum
  refine ⟨s, minimizedWords s, hs, encodeMinimizedRestoreV1_of hadopt, fun A _ cardinal =>
    decodeMinimizedRestoreV1_of hadopt ?_ cardinal⟩
  rw [hnum]
  cases monitorNum with
  | none => decide
  | some n => exact hmon n rfl

theorem Rect.sized_iff : r.Sized ↔ 0 < r.w ∧ 0 < r.h := ⟨fun h => ⟨h.w, h.h⟩, fun h => ⟨h.1, h.2⟩⟩

instance (r : Rect) : Decidable r.Sized := decidable_of_iff _ Rect.sized_iff.symm

instance (c : WMClient) : Decidable (Lends c) := by
  unfold Lends
  infer_instance

theorem lendsSlot_iff : (∀ c, w.state.clients.get? key = some c → Lends c) ↔
    ((w.state.clients.get? key).all fun c => decide (Lends c)) = true := by
  simp only [all_eq_true, decide_eq_true_eq]

instance {w : ModeWorld} : (e : HistoryEvent) → Decidable (LendsSlot key w e)
  | .mode (.setClientPip true) => decidable_of_iff _ lendsSlot_iff.symm
  | .mode (.setClientPip false) | .mode (.setfullscreen _) | .mode (.setClientMinimized _) | .mode (.view _)
  | .maximize _ _ | .unmaximizeInPlace => inferInstanceAs (Decidable True)

namespace Sample

/-- A tile as `manage` leaves it: the floating slot is unset. -/
def tiledClient : WMClient :=
  { modeClient with
    state := { modeClient.state with isFloating := false }
    geometry := { modeClient.geometry with oldRect := modeClient.geometry.rect } }

def tiledWorld : ModeWorld :=
  { modeWorld with state := { modeWorld.state with clients := KeyMap.empty.insert modeKey tiledClient } }

/-- A bar takes 20 pixels at the top unless the first tag shows alone. -/
def barEnv : ModeEnv :=
  { modeEnv with
    maximizeWorkArea := fun s m => (s.monitors.get? m).map fun x =>
      if x.tagSet x.selTags = 1 then x.rect else { x.rect with y := 20, h := x.rect.h - 20 } }

theorem newlyManaged_tiled : NewlyManaged tiledClient where
  rect := by decide
  old := rfl
  unparked := rfl
  unmaximized := ⟨rfl, rfl⟩
  fullscreen := rfl
  pip := ⟨rfl, rfl⟩
  drag := rfl

theorem screens_tiled : Screens tiledWorld.state := by
  rintro mon m hm
  have hall : (tiledWorld.state.monitors.entries.all fun e => decide e.2.rect.Sized) = true := by decide
  have hmem := KeyMap.get?_eq_some.1 hm
  exact of_decide_eq_true (List.all_eq_true.1 hall _ hmem)

end Sample

open Sample

/-- Promoted, refitted below the bar, made fullscreen and dragged out again, then into PiP: the snapshot is written and
read back. -/
theorem minimize_survives_history_tour :
    ∃ c', (after (Sample.barEnv.historyStep Sample.modeKey Sample.modeMonitor) Sample.tiledWorld
        [.maximize .full .user, .mode (.view 3), .mode (.setfullscreen true), .mode (.setfullscreen false), .unmaximizeInPlace,
          .mode (.setClientPip true)]).state.clients.get? Sample.modeKey = some c' ∧
      (Banded c' → ∃ s words, minimizedRestoreSnapshot c' (some 0) 7 = some s ∧
        encodeMinimizedRestoreV1 s = some words ∧ decodeMinimizedRestoreV1 (0 : Fin 2)
          { actualType := 0, format := 32, bytesAfter := 0, words } = some s) := by
  obtain ⟨c', hc', hsnap⟩ := (minimize_survives_history barEnv modeKey modeMonitor tiledWorld
    tiledClient rfl newlyManaged_tiled screens_tiled).1
    [.maximize .full .user, .mode (.view 3), .mode (.setfullscreen true), .mode (.setfullscreen false), .unmaximizeInPlace,
      .mode (.setClientPip true)] (by decide +kernel)
  refine ⟨c', hc', fun hb => ?_⟩
  obtain ⟨s, words, hs, he, hd⟩ := hsnap hb 7 (by decide) (by decide) (some 0) (fun n hn => by cases hn; decide)
  exact ⟨s, words, hs, he, hd (Fin 2) 0⟩

/-- A new tile that the user maximizes and then puts in PiP cannot be minimized: nothing set its floating slot, so the
snapshot is refused, whatever its order. -/
theorem promoted_pip_refuses_minimize :
    NewlyManaged Sample.tiledClient ∧ (∀ n, Sample.modeEnv.answer n = true) ∧
      ∃ c', (after (Sample.modeEnv.historyStep Sample.modeKey Sample.modeMonitor) Sample.tiledWorld
          [.maximize .full .user, .mode (.setClientPip true)]).state.clients.get? Sample.modeKey = some c' ∧
        Banded c' ∧ ∀ monitorNum order, minimizedRestoreSnapshot c' monitorNum order = none := by
  refine ⟨newlyManaged_tiled, fun _ => rfl, ?_⟩
  have hend : ((after (modeEnv.historyStep modeKey modeMonitor) tiledWorld
      [.maximize .full .user, .mode (.setClientPip true)]).state.clients.get? modeKey).any
        (fun c => decide (Banded c) && c.state.isPip && c.geometry.floatingRect == ⟨0, 0, 0, 0⟩) = true := by
    decide +kernel
  cases hc : (after (modeEnv.historyStep modeKey modeMonitor) tiledWorld
      [.maximize .full .user, .mode (.setClientPip true)]).state.clients.get? modeKey with
  | none =>
    rw [hc] at hend
    cases hend
  | some c =>
    rw [hc] at hend
    simp only [any_some, Bool.and_eq_true, decide_eq_true_eq, beq_iff_eq] at hend
    obtain ⟨⟨hband, hpip⟩, hunset⟩ := hend
    refine ⟨c, rfl, hband, fun monitorNum order => snapshot_unset hpip ?_ monitorNum order⟩
    rw [hunset]
    decide

end Jwm
