/-
Minimizing over mode histories: maximize, promotion, fullscreen, PiP and dragging hand rectangle slots and borrowed flags
around, and the snapshot of a minimized window has to be adoptable after any of them.
-/
import Jwm.Core.MaximizeHistory
import Jwm.Core.SizeHints
import Jwm.Wm.MaximizeModes
import Jwm.Wm.RestoreWords
import Jwm.Wm.WindowModeRuns

namespace Jwm

open WMClient WMState

/-! ## The slots -/

/-- Positive sides. -/
structure Rect.Sized (r : Rect) : Prop where
  w : 0 < r.w
  h : 0 < r.h

/-- What every history keeps of a window's slots and flags. -/
structure Sound (c : WMClient) : Prop where
  rect : c.geometry.rect.Sized
  parked : ∀ r, c.geometry.hiddenRestoreRect = some r → r.Sized
  old : c.geometry.oldRect.Sized
  restore : ∀ r, c.geometry.maximizeRestoreRect = some r → r.Sized
  lent : c.state.isPip = true → c.geometry.floatingRect.Sized
  exclusive : c.state.isPip = true → c.state.isFullscreen = false
  floats : c.state.isFullscreen = true ∨ c.state.isPip = true → c.state.isFloating = true
  sticky : c.state.isPip = false → c.state.pipRestoreSticky = false
  drag : c.state.isDragFloating = true → c.restingFloating = true ∧ c.state.maximizeRestoreTiled = false

/-- The record after a step that is not a mode change: the flags are the same, and no slot was lost. -/
structure Tended (c c' : WMClient) : Prop where
  sound : Sound c → Sound c'
  standing : c'.standing = c.standing
  floating : Sound c → c.geometry.floatingRect.Sized → c'.geometry.floatingRect.Sized

theorem Tended.refl (c : WMClient) : Tended c c := ⟨id, rfl, fun _ => id⟩

variable {c : WMClient}

theorem Tended.trans {a b : WMClient} (h : Tended a b) (h' : Tended b c) : Tended a c :=
  ⟨fun hs => h'.sound (h.sound hs), h'.standing.trans h.standing, fun hs hf => h'.floating (h.sound hs) (h.floating hs hf)⟩

variable {c' : WMClient} {r : Rect}

theorem restingFloating_of_standing (h : c'.standing = c.standing) : c'.restingFloating = c.restingFloating := by
  unfold restingFloating
  rw [(eq_of_standing h).2]

/-- A step that keeps the flags tends the record if every slot it leaves is sized. -/
theorem Tended.of_geometry (hs : c'.standing = c.standing) (hrect : Sound c → c'.geometry.rect.Sized)
    (hparked : Sound c → ∀ r, c'.geometry.hiddenRestoreRect = some r → r.Sized)
    (hold : Sound c → c'.geometry.oldRect.Sized)
    (hrestore : Sound c → ∀ r, c'.geometry.maximizeRestoreRect = some r → r.Sized)
    (hfloat : Sound c → c.geometry.floatingRect.Sized → c'.geometry.floatingRect.Sized) : Tended c c' := by
  obtain ⟨-, hst⟩ := eq_of_standing hs
  refine ⟨fun h => ⟨hrect h, hparked h, hold h, hrestore h, fun hp => hfloat h (h.lent ?_), ?_, ?_, ?_, ?_⟩, hs, hfloat⟩
  · rw [hst] at hp
    exact hp
  · rw [hst]
    exact h.exclusive
  · rw [hst]
    exact h.floats
  · rw [hst]
    exact h.sticky
  · rw [restingFloating_of_standing hs, hst]
    exact h.drag

theorem Sound.visible (h : Sound c) : c.geometry.visibleRect.Sized := by
  unfold ClientGeometry.visibleRect
  cases hr : c.geometry.hiddenRestoreRect with
  | none => exact h.rect
  | some r => exact h.parked r hr

def Screens (s : WMState) : Prop := ∀ mon m, s.monitors.get? mon = some m → m.rect.Sized

theorem Screens.of_outlook {s s' : WMState} (h : Screens s)
    (ho : ∀ m, (s'.monitors.get? m).map WMMonitor.outlook = (s.monitors.get? m).map WMMonitor.outlook) : Screens s' := by
  rintro mon m hm
  obtain ⟨m', hm', hg, -⟩ := WMMonitor.of_outlook (ho mon).symm hm
  have hrect : m.rect = m'.rect := by unfold WMMonitor.rect; rw [hg]
  rw [hrect]
  exact h mon m' hm'

/-- The window `key` is still there, and tended; the monitors keep their sizes. -/
structure KeepsSound (key : ClientKey) (w w' : ModeWorld) : Prop where
  window : ∀ c, w.state.clients.get? key = some c → ∃ c', w'.state.clients.get? key = some c' ∧ Tended c c'
  screens : Screens w.state → Screens w'.state

theorem patient_keepsSound (key : ClientKey) : Patient (KeepsSound key) where
  refl _ := ⟨fun c hc => ⟨c, hc, .refl c⟩, id⟩
  trans h h' := ⟨fun c hc => by
    obtain ⟨c₁, hc₁, ht₁⟩ := h.window c hc
    obtain ⟨c₂, hc₂, ht₂⟩ := h'.window c₁ hc₁
    exact ⟨c₂, hc₂, ht₁.trans ht₂⟩, fun hs => h'.screens (h.screens hs)⟩
  ask _ := ⟨fun c hc => ⟨c, hc, .refl c⟩, id⟩

variable {env : ModeEnv} {key : ClientKey}

variable {w w' : ModeWorld}

theorem keepsSound_clients (h : w'.state.clients = w.state.clients)
    (hm : w'.state.monitors = w.state.monitors) : KeepsSound key w w' := by
  refine ⟨fun c hc => ⟨c, by rw [h, hc], .refl c⟩, fun hs => ?_⟩
  unfold Screens
  rw [hm]
  exact hs

section

variable (k : ClientKey)

theorem keepsSound_modifyClient {f : WMClient → WMClient} (hf : ∀ c, Tended c (f c)) :
    Always (KeepsSound key) (modifyClient k f) := by
  refine always_modify fun w => ⟨fun c hc => ?_, id⟩
  by_cases hk : key = k
  · subst hk
    exact ⟨f c, by rw [modifyClient_get?_of hc, if_pos rfl], hf c⟩
  · exact ⟨c, by rw [modifyClient_get?, if_neg hk, hc], .refl c⟩

/-! ## Showing, hiding and resizing -/

theorem tended_refresh (c : WMClient) (hints : Option SizeHints) : Tended c (refreshClientSizeHints c hints) := by
  have hg : (refreshClientSizeHints c hints).geometry = c.geometry := by
    unfold refreshClientSizeHints
    split
    · rfl
    · cases hints with
      | none | some hints => rfl
  refine .of_geometry (standing_refreshClientSizeHints c hints) ?_ ?_ ?_ ?_ ?_
  · rw [hg]; exact fun h => h.rect
  · rw [hg]; exact fun h => h.parked
  · rw [hg]; exact fun h => h.old
  · rw [hg]; exact fun h => h.restore
  · rw [hg]; exact fun _ => id

theorem keepsSound_ensureSizeHintsValid : Always (KeepsSound key) (env.ensureSizeHintsValid k) :=
  have hR := patient_keepsSound key
  hR.bind (hR.always_getClient k) fun _ => always_ite
    (hR.bind (hR.always_call env) fun _ => keepsSound_modifyClient k fun c => tended_refresh c _) (hR.pure ())

theorem applySizeHintsConstraints_sized (key k : ClientKey) (hr : r.Sized) (w : ModeWorld) :
    Ensures (env.applySizeHintsConstraints k r) w (fun q w' => q.Sized ∧ KeepsSound key w w') (KeepsSound key w) := by
  have hR := patient_keepsSound key
  refine ((hR.always_getClient k) w).bind (fun c w₂ h₂ => ensures_ite (fun _ => ensures_pure ⟨hr, h₂⟩) fun _ => ?_)
    fun _ h => h
  refine (keepsSound_ensureSizeHintsValid k w₂).bind (fun _ w₃ h₃ => ?_) fun _ h => hR.trans h₂ h
  refine ((hR.always_getClient k) w₃).bind (fun c' w₄ h₄ => ensures_pure ⟨?_, hR.trans h₂ (hR.trans h₃ h₄)⟩)
    fun _ h => hR.trans h₂ (hR.trans h₃ h)
  obtain ⟨hw, hh⟩ := one_le_calculateConstrainedSize r.w r.h c'.sizeHints
  exact ⟨hw, hh⟩

/-- The sides of a rectangle, at least a pixel each. -/
theorem atLeastOne_sized (r : Rect) : Rect.Sized { r with w := max r.w 1, h := max r.h 1 } :=
  ⟨lt_of_lt_of_le (by decide) (le_max_right r.w 1), lt_of_lt_of_le (by decide) (le_max_right r.h 1)⟩

theorem applysizehints_sized (key k : ClientKey) (r : Rect) (w : ModeWorld) :
    Ensures (env.applysizehints k r) w (fun q w' => q.Sized ∧ KeepsSound key w w') (KeepsSound key w) := by
  have hR := patient_keepsSound key
  -- moving keeps the sides
  have hmove : ∀ (q : Rect) (w : ModeWorld), q.Sized → Ensures (ModeEnv.applyBoundaryConstraints k q) w
      (fun q' w' => q'.Sized ∧ KeepsSound key w w') (KeepsSound key w) := fun q w hq => by
    refine ((hR.always_getClient k) w).bind (fun c w₁ h₁ => ensures_bind (ensures_getState ?_)) fun _ h => h
    cases c.mon.bind w₁.state.monitors.get? with
    | none => exact ensures_pure ⟨hq, h₁⟩
    | some m => exact ensures_pure ⟨⟨hq.w, hq.h⟩, h₁⟩
  refine (hmove _ w (atLeastOne_sized r)).bind (fun q₁ w₁ ⟨hq₁, h₁⟩ => ?_) fun _ h => h
  refine (applySizeHintsConstraints_sized key k hq₁ w₁).bind (fun q₂ w₂ ⟨hq₂, h₂⟩ => ?_) fun _ h => hR.trans h₁ h
  refine ensures_ite (fun _ => ensures_pure ⟨hq₂, hR.trans h₁ h₂⟩) fun _ => ?_
  exact (hmove q₂ w₂ hq₂).mono (fun _ _ h => ⟨h.1, hR.trans h₁ (hR.trans h₂ h.2)⟩) fun _ h => hR.trans h₁ (hR.trans h₂ h)

theorem keepsSound_resizeclient (hr : r.Sized) : Always (KeepsSound key) (env.resizeclient k r) :=
  have hR := patient_keepsSound key
  hR.bind (keepsSound_modifyClient k fun _ => .of_geometry rfl (fun _ => hr) (fun h => h.parked) (fun h => h.rect)
    (fun h => h.restore) fun _ => id) fun _ => hR.always_call env

theorem keepsSound_resizeClient (r : Rect) : Always (KeepsSound key) (env.resizeClient k r) := by
  have hR := patient_keepsSound key
  intro w
  refine ensures_bind (ensures_attempt ((applysizehints_sized key k r w).mono ?_ ?_))
  · rintro q w₁ ⟨hq, h₁⟩
    exact ((always_attempt (keepsSound_resizeclient k hq)) w₁).bind (fun _ _ h => ensures_pure (hR.trans h₁ h))
      fun _ h => hR.trans h₁ h
  · rintro w₁ h₁ e
    exact ensures_pure h₁

theorem tended_restoreHidden (c : WMClient) (left x : Int) :
    Tended c { c with geometry := restoreHiddenGeometry c.geometry left x } := by
  unfold restoreHiddenGeometry
  cases hp : planHiddenRestore c.geometry left with
  | none => exact .refl c
  | some plan =>
    refine .of_geometry rfl (fun h => ?_) (fun _ r hr => by cases hr) (fun h => h.old) (fun h => h.restore) fun _ => id
    cases plan with
    | slot restore =>
      have hslot : c.geometry.hiddenRestoreRect = some restore := by
        unfold planHiddenRestore at hp
        split at hp
        · cases hr : c.geometry.hiddenRestoreRect with
          | none =>
            rw [hr] at hp
            dsimp only at hp
            split at hp <;> cases hp
          | some v =>
            rw [hr] at hp
            cases hp
            rfl
        · cases hp
      exact h.parked restore hslot
    | oldX | legacyFallback => exact ⟨h.rect.w, h.rect.h⟩

theorem tended_stage (c : WMClient) (x : Int) :
    Tended c { c with geometry := stageHiddenGeometry c.geometry c.geometry.rect x } := by
  refine .of_geometry rfl (fun h => ⟨h.rect.w, h.rect.h⟩) (fun h r hr => ?_) (fun h => h.old) (fun h => h.restore) fun _ => id
  cases hr
  exact h.visible

theorem tended_parkAt (c : WMClient) {target : Rect} (ht : Sound c → target.Sized) (x : Int) :
    Tended c { c with geometry := c.geometry.parkAt target x } := by
  refine .of_geometry rfl (fun h => ⟨(ht h).w, (ht h).h⟩) (fun h r hr => ?_) (fun h => h.old) (fun h => h.restore) fun _ => id
  cases hr
  exact ht h

theorem keepsSound_showhideClient (mon : MonitorKey) :
    Always (KeepsSound key) (env.showhideClient k mon) := by
  have hR := patient_keepsSound key
  refine hR.bind hR.always_getState fun _ => always_ite (hR.pure ()) (always_ite ?_ ?_)
  · refine hR.bind hR.always_getState fun s => ?_
    cases s.clients.get? k with
    | none => exact hR.pure ()
    | some c =>
      refine hR.bind (keepsSound_modifyClient k fun c => tended_restoreHidden c _ _) fun _ =>
        hR.bind (hR.always_ask env) fun _ => hR.bind hR.always_getState fun s => ?_
      cases s.clients.get? k with
      | none => exact hR.pure ()
      | some c => exact always_ite (keepsSound_resizeClient k _) (hR.pure ())
  · refine hR.bind hR.always_getState fun s => ?_
    cases s.clients.get? k with
    | none => exact hR.pure ()
    | some c =>
      exact hR.bind (keepsSound_modifyClient k fun c => tended_stage c _) fun _ => hR.bind (hR.always_ask env) fun _ =>
        hR.pure ()

/-! ## Placing -/

theorem keepsSound_placeBar {s : WMState} (bar : BarPlace s) : Always (KeepsSound key) (env.placeBar bar) := by
  have hR := patient_keepsSound key
  refine hR.bind (always_attempt (hR.bind (always_ite (hR.bind (hR.always_call env) fun _ => ?_) (hR.pure _)) fun _ =>
    always_ite (hR.always_call env) (hR.pure _))) fun _ => hR.pure _
  exact keepsSound_modifyClient bar.client fun _ => .of_geometry rfl (fun _ => ⟨bar.sized.1, bar.sized.2⟩)
    (fun h => h.parked) (fun h => h.old) (fun h => h.restore) fun _ => id

theorem tileRect_sized (key k : ClientKey) (preconstrained : Bool) (hr : r.Sized) (w : ModeWorld) :
    Ensures (env.tileRect preconstrained k r) w (fun q w' => q.Sized ∧ KeepsSound key w w') (KeepsSound key w) :=
  ensures_ite (fun _ => ensures_pure ⟨hr, (patient_keepsSound key).refl w⟩) fun _ => ensures_bind (ensures_attempt
    ((applySizeHintsConstraints_sized key k hr w).mono (fun _ _ h => ensures_pure h) fun _ h _ => ensures_pure ⟨hr, h⟩))

theorem keepsSound_applyLayoutResult (preconstrained : Bool) (k : ClientKey) (r : Rect) :
    Always (KeepsSound key) (env.applyLayoutResult preconstrained k r) := by
  have hR := patient_keepsSound key
  refine fun w => (tileRect_sized key k preconstrained (atLeastOne_sized r) w).bind (fun q w₁ ⟨hq, h₁⟩ => ?_) fun _ h => h
  exact (always_attempt (keepsSound_resizeclient k hq) w₁).bind (fun _ _ h => ensures_pure (hR.trans h₁ h))
    fun _ h => hR.trans h₁ h

/-- The window is `c` but for tending, on monitors that have a size. -/
structure Reaches (key : ClientKey) (c : WMClient) (w : ModeWorld) : Prop where
  window : ∃ c', w.state.clients.get? key = some c' ∧ Tended c c'
  screens : Screens w.state

theorem KeepsSound.reaches (h : KeepsSound key w w') (hr : Reaches key c w) : Reaches key c w' := by
  obtain ⟨c₁, hc₁, ht₁⟩ := hr.window
  obtain ⟨c₂, hc₂, ht₂⟩ := h.window c₁ hc₁
  exact ⟨⟨c₂, hc₂, ht₁.trans ht₂⟩, h.screens hr.screens⟩

theorem Always.reaches {α : Type} {x : Modes α} (hx : Always (KeepsSound key) x)
    (h : Reaches key c w) : Ensures x w (fun _ => Reaches key c) (Reaches key c) :=
  (hx w).mono (fun _ _ hk => hk.reaches h) fun _ hk => hk.reaches h

theorem mirrorFreeAxes_sized {l : Rect} (hr : r.Sized) (hl : l.Sized) (axes : MaximizeAxes) :
    (mirrorFreeAxes r l axes).Sized := by
  constructor
  · rw [mirrorFreeAxes_w]
    split
    · exact hr.w
    · exact hl.w
  · rw [mirrorFreeAxes_h]
    split
    · exact hr.h
    · exact hl.h

/-- A refit leaves sized slots if the slots it started from were. -/
theorem Tended.refitted (h : Tended c c') {base : Rect} (hb : Sound c → base.Sized) (promoted : Bool) :
    Tended c (ModeEnv.refitted c' base promoted) := by
  refine .of_geometry h.standing (fun hs => (h.sound hs).rect) (fun hs => (h.sound hs).parked) (fun hs => (h.sound hs).old)
    (fun hs r hr => ?_) fun hs hf => ?_
  · cases hr
    exact hb hs
  · show Rect.Sized (if promoted then c'.geometry.floatingRect else base)
    split
    · exact h.floating hs hf
    · exact hb hs

theorem KeepsSound.modifyClient (h : KeepsSound key w w') {k : ClientKey} {f : WMClient → WMClient}
    (hf : ∀ c c', k = key → w.state.clients.get? key = some c → Tended c c' → Tended c (f c')) :
    KeepsSound key w { w' with state := w'.state.modifyClient k f } := by
  refine ⟨fun c hc => ?_, h.screens⟩
  obtain ⟨c', hc', ht⟩ := h.window c hc
  by_cases hk : key = k
  · exact ⟨f c', by rw [← hk, modifyClient_get?_of hc', if_pos rfl], hf c c' hk.symm hc ht⟩
  · exact ⟨c', by rw [modifyClient_get?, if_neg hk, hc'], ht⟩

theorem keepsSound_refitKeepingRestoreSlot (hr : r.Sized) :
    Always (KeepsSound key) (env.refitKeepingRestoreSlot k r) := by
  intro w
  refine ensures_bind (ensures_getState ?_)
  refine (always_attempt (keepsSound_resizeclient k hr) w).bind (fun _ w₁ h₁ => ?_) fun _ h => h
  refine ensures_modifyState (h₁.modifyClient fun c c' hk hc ht => ?_)
  rw [hk, hc]
  exact .of_geometry ht.standing (fun hs => (ht.sound hs).rect) (fun hs => (ht.sound hs).parked) (fun hs => hs.old)
    (fun hs => (ht.sound hs).restore) ht.floating

theorem keepsSound_refitMaximizedClient (area : Rect) (k : ClientKey) :
    Always (KeepsSound key) (env.refitMaximizedClient area k) := by
  have hR := patient_keepsSound key
  intro w
  refine ensures_bind (ensures_getState ?_)
  cases hc : w.state.clients.get? k with
  | none => exact ensures_pure (hR.refl w)
  | some c =>
    refine ensures_bind (ensures_attempt ((applysizehints_sized key k _ w).mono ?_ fun w₁ h₁ e => ensures_pure h₁))
    rintro target w₁ ⟨htarget, h₁⟩
    refine ensures_bind (ensures_modifyState ?_)
    have h₂ := h₁.modifyClient (k := k) (f := (ModeEnv.refitted · (mirrorFreeAxes
        (c.geometry.maximizeRestoreRect.getD c.geometry.rect) c.geometry.rect c.state.maximizedAxes) c.state.maximizeRestoreTiled))
      fun c₀ c' hk hc₀ ht => ht.refitted (fun hs => ?_) c.state.maximizeRestoreTiled
    · exact ensures_ite (fun _ => (keepsSound_refitKeepingRestoreSlot k htarget _).mono (fun _ _ h => hR.trans h₂ h)
        fun _ h => hR.trans h₂ h) fun _ => ensures_pure h₂
    · cases hk
      cases hc.symm.trans hc₀
      refine mirrorFreeAxes_sized ?_ hs.rect _
      cases hrestore : c.geometry.maximizeRestoreRect with
      | none => exact hs.rect
      | some r => exact hs.restore r hrestore

theorem arranging_keepsSound (env : ModeEnv) (key : ClientKey) : Arranging env (KeepsSound key) where
  toPatient := patient_keepsSound key
  showhide k mon := ((arranging_arranged env).showhide k mon).of_always (keepsSound_showhideClient k mon)
  bar bar := ((arranging_arranged env).bar bar).of_always (keepsSound_placeBar bar)
  layout w mon symbol resizes := ⟨fun c hc => ⟨c, hc, .refl c⟩, fun hs =>
    hs.of_outlook ((arranging_arranged env).layout w mon symbol resizes).monitors⟩
  draw k lt := ((arranging_arranged env).draw k lt).of_always (keepsSound_modifyClient k fun _ =>
    .of_geometry rfl (fun h => h.rect) (fun h => h.parked) (fun h => h.old) (fun h => h.restore) fun _ => id)
  hint k := keepsSound_ensureSizeHintsValid k
  tile preconstrained k r := ((arranging_arranged env).tile preconstrained k r).of_always
    (keepsSound_applyLayoutResult preconstrained k r)
  refit area k := ((arranging_arranged env).refit area k).of_always (keepsSound_refitMaximizedClient area k)

theorem keepsSound_arrange (target : Option MonitorKey) : Always (KeepsSound key) (env.arrange target) :=
  ((arranging_keepsSound env key).arrange target).always

/-! ## Fullscreen and PiP -/

/-- A change of the record made on a window that is exactly `c`. -/
theorem reaches_modify (hc : w.state.clients.get? key = some c) (hs : Screens w.state)
    (f : WMClient → WMClient) (hw : w'.state.clients = (w.state.modifyClient key f).clients)
    (hm : w'.state.monitors = w.state.monitors) : Reaches key (f c) w' := by
  refine ⟨⟨f c, ?_, .refl _⟩, ?_⟩
  · rw [hw, modifyClient_get?_of hc, if_pos rfl]
  · unfold Screens
    rw [hm]
    exact hs

theorem reorder_monitors (s : WMState) (key : ClientKey) : (reorderClientInMonitorGroups s key).monitors = s.monitors := by
  rw [reorder_frame]

theorem keepsSound_regroup :
    Always (KeepsSound key) (modifyState (reorderClientInMonitorGroups · k)) :=
  always_modify fun w => keepsSound_clients (reorder_clients w.state k) (reorder_monitors w.state k)

end

theorem Sound.enterFullscreen (h : Sound c) (hp : c.state.isPip = false) (hf : c.state.isFullscreen = false)
    (hidden : Bool) : Sound (c.enterFullscreen hidden) where
  rect := h.rect
  parked := h.parked
  old := by
    show Rect.Sized (if hidden then c.geometry.visibleRect else c.geometry.oldRect)
    split
    · exact h.visible
    · exact h.old
  restore := h.restore
  lent := h.lent
  exclusive hx := absurd (hp.symm.trans hx) Bool.false_ne_true
  floats _ := rfl
  sticky := h.sticky
  drag hd := by
    obtain ⟨hr, ht⟩ := h.drag hd
    refine ⟨?_, ht⟩
    unfold restingFloating at hr ⊢
    rw [hf, hp] at hr
    exact hr

theorem Sound.leaveFullscreen (h : Sound c) (hf : c.state.isFullscreen = true) (hidden : Bool)
    (left : Int) : Sound (c.leaveFullscreen hidden left) := by
  have hp : c.state.isPip = false := by
    exact eq_false_of_ne_true fun hp => absurd (hf.symm.trans (h.exclusive hp)) (by decide)
  have hold := h.old
  refine ⟨?_, ?_, ?_, ?_, fun hx => absurd (hp.symm.trans hx) Bool.false_ne_true, fun _ => rfl, ?_, h.sticky, fun hd => ?_⟩
  · cases hidden with
    | true => exact ⟨hold.w, hold.h⟩
    | false => exact hold
  · cases hidden with
    | true =>
      rintro r hr
      cases hr
      exact hold
    | false => exact h.parked
  · cases hidden with
    | true | false => exact hold
  · cases hidden with
    | true | false => exact h.restore
  · rintro (hx | hx)
    · cases hx
    · exact absurd (hp.symm.trans hx) Bool.false_ne_true
  · obtain ⟨hr, ht⟩ := h.drag hd
    refine ⟨?_, ht⟩
    unfold restingFloating at hr ⊢
    rw [hf, Bool.true_or, if_pos rfl] at hr
    show (if (false || c.state.isPip) = true then c.state.oldState else c.state.oldState) = true
    rw [ite_self, hr]

theorem enterFullscreen_sound (hc : w.state.clients.get? key = some c) (hs : Screens w.state) :
    Ensures (env.enterFullscreen key) w (fun _ w' => ∃ hidden, Reaches key (c.enterFullscreen hidden) w')
      (fun _ => True) := by
  have hR := patient_keepsSound key
  refine ensures_bind (ensures_call ?_ trivial)
  refine ensures_bind (ensures_getClient hc (ensures_bind (ensures_getState ?_)))
  generalize (c.state.isHidden || env.restartClientOffView w.state key) = hidden
  refine ensures_bind (ensures_modifyState ?_)
  have hgo : Reaches key (c.enterFullscreen hidden)
      { w with state := w.state.modifyClient key (·.enterFullscreen hidden), asked := w.asked + 1 } :=
    reaches_modify hc hs (·.enterFullscreen hidden) rfl rfl
  -- the monitor the window covers has a size
  have hcover : Always (KeepsSound key)
      (env.coverMonitor key (c.mon.bind w.state.monitors.get?) hidden (desktopLeftEdge w.state)) := by
    cases hm : c.mon.bind w.state.monitors.get? with
    | none => exact hR.pure ()
    | some m =>
      obtain ⟨mon, -, hmon⟩ := Option.bind_eq_some_iff.1 hm
      have hsized := hs mon m hmon
      exact always_ite (hR.bind (keepsSound_modifyClient key fun c => tended_parkAt c (fun _ => hsized) _) fun _ =>
        hR.always_call env) (keepsSound_resizeclient key hsized)
  refine ((hR.bind (keepsSound_regroup key) fun _ => hR.bind hcover fun _ =>
    always_ite (hR.always_call env) (hR.pure ())).reaches hgo).mono (fun _ _ h => ⟨hidden, h⟩) fun _ _ => trivial

theorem leaveFullscreen_sound
    (hc : w.state.clients.get? key = some c) (h : Sound c) (hf : c.state.isFullscreen = true) (hs : Screens w.state) :
    Ensures (env.leaveFullscreen key) w (fun _ w' => ∃ hidden left, Reaches key (c.leaveFullscreen hidden left) w')
      (fun _ => True) := by
  have hR := patient_keepsSound key
  refine ensures_bind (ensures_call (ensures_bind (ensures_getState ?_)) trivial)
  generalize (!isClientVisibleByKey w.state key) = hidden
  generalize desktopLeftEdge w.state = left
  refine ensures_bind (ensures_modifyState ?_)
  have hgo : Reaches key (c.leaveFullscreen hidden left)
      { w with state := w.state.modifyClient key (·.leaveFullscreen hidden left), asked := w.asked + 1 } :=
    reaches_modify hc hs (·.leaveFullscreen hidden left) rfl rfl
  refine ((keepsSound_regroup key).reaches hgo).bind (fun _ w₁ h₁ => ?_) fun _ _ => trivial
  obtain ⟨c₁, hc₁, ht⟩ := h₁.window
  refine ensures_bind (ensures_getClient hc₁ ?_)
  have hrect := (ht.sound (h.leaveFullscreen hf hidden left)).rect
  exact ((hR.bind (always_ite (hR.always_call env) (keepsSound_resizeclient key hrect)) fun _ =>
    always_ite (keepsSound_arrange c₁.mon) (hR.pure ())).reaches h₁).mono (fun _ _ h => ⟨hidden, left, h⟩)
      fun _ _ => trivial

/-- A promoted window keeps its floating slot in PiP, which has to be set. -/
def Lends (c : WMClient) : Prop :=
  c.state.maximizeRestoreTiled = true → c.state.maximizedAxes.any = true → c.geometry.floatingRect.Sized

theorem Sound.enterPip (h : Sound c) (hp : c.state.isPip = false) (hf : c.state.isFullscreen = false)
    (hl : Lends c) : Sound c.enterPip := by
  have hflags : ∀ g : ClientGeometry, g.rect = c.geometry.rect → g.hiddenRestoreRect = c.geometry.hiddenRestoreRect →
      g.oldRect = c.geometry.oldRect → (∀ r, g.maximizeRestoreRect = some r → r.Sized) → g.floatingRect.Sized →
      Sound { c.enterPip with geometry := g } := by
    intro g h1 h2 h3 h4 h5
    refine ⟨by rw [h1]; exact h.rect, by rw [h2]; exact h.parked, by rw [h3]; exact h.old, h4, fun _ => h5, fun _ => hf,
      fun _ => rfl, fun hx => absurd hx.symm Bool.false_ne_true, fun hd => ?_⟩
    obtain ⟨hr, ht⟩ := h.drag hd
    refine ⟨?_, ht⟩
    unfold restingFloating at hr ⊢
    rw [hf, hp] at hr
    show (if (c.state.isFullscreen || true) = true then c.state.isFloating else true) = true
    rw [Bool.or_true, if_pos rfl]
    exact hr
  by_cases hx : (c.state.maximizeRestoreTiled && c.state.maximizedAxes.any) = true
  · have hg : c.enterPip.geometry = { c.geometry with
        maximizeRestoreRect := c.geometry.maximizeRestoreRect.map (mirrorFreeAxes · c.geometry.visibleRect
          c.state.maximizedAxes) } := if_pos hx
    rw [Bool.and_eq_true] at hx
    refine hflags c.enterPip.geometry (by rw [hg]) (by rw [hg]) (by rw [hg]) (fun r hr => ?_) ?_
    · rw [hg] at hr
      obtain ⟨v, hv, rfl⟩ := Option.map_eq_some_iff.1 hr
      exact mirrorFreeAxes_sized (h.restore v hv) h.visible _
    · rw [hg]
      exact hl hx.1 hx.2
  · have hg : c.enterPip.geometry = { c.geometry with floatingRect := c.geometry.visibleRect } := if_neg hx
    refine hflags c.enterPip.geometry (by rw [hg]) (by rw [hg]) (by rw [hg]) (by rw [hg]; exact h.restore) ?_
    rw [hg]
    exact h.visible

theorem Sound.leavePip (h : Sound c) (hp : c.state.isPip = true) : Sound c.leavePip where
  rect := h.rect
  parked := h.parked
  old := h.old
  restore := h.restore
  lent hx := by cases hx
  exclusive hx := by cases hx
  floats := by
    rintro (hx | hx)
    · exact absurd ((h.exclusive hp).symm.trans hx) Bool.false_ne_true
    · cases hx
  sticky _ := rfl
  drag hd := by
    obtain ⟨hr, ht⟩ := h.drag hd
    refine ⟨?_, ht⟩
    unfold restingFloating at hr ⊢
    rw [hp, Bool.or_true, if_pos rfl] at hr
    show (if (c.state.isFullscreen || false) = true then c.state.oldState else c.state.oldState) = true
    rw [ite_self, hr]

theorem togglePip_sound (hc : w.state.clients.get? key = some c) (hs : Screens w.state) (pip : Bool) :
    Ensures (env.togglePip key pip) w (fun _ => Reaches key (if pip then c.enterPip else c.leavePip))
      (fun _ => True) := by
  have hR := patient_keepsSound key
  refine ensures_bind (ensures_getClient hc (ensures_bind (ensures_getState ?_)))
  cases env.pipTarget w.state c pip with
  | error e => exact ensures_throw trivial
  | ok target =>
    refine ensures_bind (ensures_modifyState ?_)
    have hgo : Reaches key (if pip then c.enterPip else c.leavePip)
        { w with state := w.state.modifyClient key fun c => if pip then c.enterPip else c.leavePip } :=
      reaches_modify hc hs (fun c => if pip then c.enterPip else c.leavePip) rfl rfl
    have hundo : ∀ w', True → Ensures (modifyClient key fun _ => c) w' (fun _ _ => True) fun _ => True :=
      fun w' _ => ensures_true _
    have hhints : Ensures (env.applysizehints key target)
        { w with state := w.state.modifyClient key fun c => if pip then c.enterPip else c.leavePip }
        (fun q w' => q.Sized ∧ Reaches key (if pip then c.enterPip else c.leavePip) w') (fun _ => True) :=
      (applysizehints_sized key key target _).mono (fun q w' h => ⟨h.1, h.2.reaches hgo⟩) fun _ _ => trivial
    refine (ensures_rollingBack hhints hundo).bind (fun q w₁ ⟨hq, h₁⟩ => ?_) fun _ h => h
    refine (ensures_rollingBack (((hR.always_call env).reaches h₁).mono (fun _ _ h => h) fun _ _ => trivial) hundo).bind
      (fun _ w₂ h₂ => ?_) fun _ h => h
    have hconf : Always (KeepsSound key) (env.configurePip key c q) :=
      always_ite (hR.bind hR.always_getState fun _ => hR.bind (hR.always_call env) fun _ =>
        keepsSound_modifyClient key fun c => tended_parkAt c (fun _ => hq) _) (keepsSound_resizeclient key hq)
    refine (ensures_rollingBack ((hconf.reaches h₂).mono (fun _ _ h => h) fun _ _ => trivial) hundo).bind
      (fun _ w₃ h₃ => ?_) fun _ h => h
    exact ((hR.bind (keepsSound_regroup key) fun _ => keepsSound_arrange c.mon).reaches h₃).mono (fun _ _ h => h)
      fun _ _ => trivial

/-! ## Whole requests -/

/-- The window is there with its slots in order. -/
structure SoundAt (key : ClientKey) (w : ModeWorld) : Prop where
  window : ∃ c, w.state.clients.get? key = some c ∧ Sound c
  screens : Screens w.state

theorem Reaches.soundAt (h : Reaches key c w) (hc : Sound c) : SoundAt key w := by
  obtain ⟨c', hc', ht⟩ := h.window
  exact ⟨⟨c', hc', ht.sound hc⟩, h.screens⟩

theorem Intact.soundAt (h : Intact key c w.state w'.state) (hc : Sound c) (hs : Screens w.state) : SoundAt key w' :=
  ⟨⟨c, h.client, hc⟩, hs.of_outlook h.steady.monitors⟩

theorem Tended.flags (h : Tended c c') : c'.state.isFullscreen = c.state.isFullscreen ∧
    c'.state.isPip = c.state.isPip ∧ (Sound c → Lends c → Lends c') := by
  have hst := (eq_of_standing h.standing).2
  refine ⟨by rw [hst], by rw [hst], fun hs hl ht ha => h.floating hs (hl ?_ ?_)⟩
  · rw [hst] at ht
    exact ht
  · rw [hst] at ha
    exact ha

theorem setfullscreen_sound (h : SoundAt key w) (fullscreen : Bool) :
    Ensures (env.setfullscreen key fullscreen) w (fun _ => SoundAt key) (SoundAt key) := by
  obtain ⟨c, hc, hsound⟩ := h.window
  suffices hinner : Ensures (env.setfullscreenInner key fullscreen) w (fun _ => SoundAt key) (fun _ => True) by
    refine (Ensures.and (Q := fun _ => SoundAt key) (E := fun _ => True) ?_ (setfullscreen_intact env hc fullscreen)).mono
      (fun _ _ hh => hh.1) fun _ hh => hh.2.soundAt hsound h.screens
    refine ensures_bind (ensures_getClient hc (ensures_bind (ensures_getState ?_)))
    exact ensures_rollingBack (F := fun _ => True) hinner fun w' _ => ensures_true _
  have henter : ∀ (w' : ModeWorld) c', Reaches key c' w' → Sound c' → c'.state.isFullscreen = false →
      c'.state.isPip = false → Ensures (env.enterFullscreen key) w' (fun _ => SoundAt key) (fun _ => True) := by
    intro w' c' hr' hs' hf' hp'
    obtain ⟨c₁, hc₁, ht⟩ := hr'.window
    obtain ⟨hf₁, hp₁, -⟩ := ht.flags
    refine (enterFullscreen_sound hc₁ hr'.screens).mono (fun _ w₂ ⟨hidden, h₂⟩ => ?_) fun _ h => h
    exact h₂.soundAt ((ht.sound hs').enterFullscreen (hp₁.trans hp') (hf₁.trans hf') hidden)
  refine ensures_bind (ensures_getClient hc ?_)
  have hhere : Reaches key c w := ⟨⟨c, hc, .refl c⟩, h.screens⟩
  cases fullscreen with
  | false =>
    refine ensures_bind (ensures_pure ?_)
    cases hf : c.state.isFullscreen with
    | false => exact ensures_pure h
    | true =>
      exact (leaveFullscreen_sound hc hsound hf h.screens).mono
        (fun _ _ ⟨hidden, left, hh⟩ => hh.soundAt (hsound.leaveFullscreen hf hidden left)) fun _ h => h
  | true =>
    cases hpip : c.state.isPip with
    | false =>
      refine ensures_bind (ensures_pure ?_)
      cases hf : c.state.isFullscreen with
      | true => exact ensures_pure h
      | false => exact henter w c hhere hsound hf hpip
    | true =>
      -- PiP ends first
      have hf := hsound.exclusive hpip
      refine ensures_bind (ensures_bind (ensures_bind (ensures_getClient hc ?_)))
      rw [hf, if_neg Bool.false_ne_true]
      refine ensures_pure (ensures_bind (ensures_getClient hc ?_))
      rw [hpip, if_pos rfl]
      exact (togglePip_sound hc h.screens false).mono
        (fun _ w₁ h₁ => henter w₁ c.leavePip h₁ (hsound.leavePip hpip) hf rfl) fun _ h => h

theorem setClientPip_sound (h : SoundAt key w) (pip : Bool)
    (hl : pip = true → ∀ c, w.state.clients.get? key = some c → Lends c) :
    Ensures (env.setClientPip key pip) w (fun _ => SoundAt key) (SoundAt key) := by
  obtain ⟨c, hc, hsound⟩ := h.window
  suffices hinner : Ensures (env.setClientPipInner key pip) w (fun _ => SoundAt key) (fun _ => True) by
    refine (Ensures.and (Q := fun _ => SoundAt key) (E := fun _ => True) ?_ (setClientPip_intact env hc pip)).mono
      (fun _ _ hh => hh.1) fun _ hh => hh.2.soundAt hsound h.screens
    refine ensures_bind (ensures_getClient hc (ensures_bind (ensures_getState ?_)))
    exact ensures_rollingBack (F := fun _ => True) hinner fun w' _ => ensures_true _
  -- once out of fullscreen
  have hgo : ∀ (w' : ModeWorld) c', Reaches key c' w' → Sound c' → (pip = true → c'.state.isFullscreen = false ∧ Lends c') →
      Ensures (do
          let client ← getClient key
          if pip = client.state.isPip then pure false
          else do
            env.togglePip key pip
            pure true) w' (fun _ => SoundAt key) (fun _ => True) := by
    intro w' c' hr' hs' hin
    obtain ⟨c₁, hc₁, ht⟩ := hr'.window
    obtain ⟨hf₁, hp₁, hl₁⟩ := ht.flags
    have hs₁ := ht.sound hs'
    refine ensures_bind (ensures_getClient hc₁ (ensures_ite (fun _ => ensures_pure ⟨⟨c₁, hc₁, hs₁⟩, hr'.screens⟩) fun hne => ?_))
    refine (togglePip_sound hc₁ hr'.screens pip).bind (fun _ w₂ h₂ => ensures_pure (h₂.soundAt ?_)) fun _ h => h
    cases pip with
    | true =>
      obtain ⟨hf', hl'⟩ := hin rfl
      refine hs₁.enterPip ?_ (hf₁.trans hf') (hl₁ hs' hl')
      exact eq_false_of_ne_true fun hx => absurd hx.symm hne
    | false =>
      refine hs₁.leavePip ?_
      exact eq_true_of_ne_false fun hx => absurd hx.symm hne
  refine ensures_bind (ensures_getClient hc (ensures_bind (ensures_ite (fun hx => ?_) fun hx => ensures_pure ?_)))
  · rw [Bool.and_eq_true] at hx
    refine ensures_bind (ensures_getClient hc ?_)
    rw [hx.2, if_pos rfl]
    refine (leaveFullscreen_sound hc hsound hx.2 h.screens).mono (fun _ w₁ ⟨hidden, left, h₁⟩ => ?_) fun _ h => h
    refine hgo w₁ _ h₁ (hsound.leaveFullscreen hx.2 hidden left) fun hpip => ⟨rfl, fun ht ha => ?_⟩
    have hfl := hl hpip c hc ht ha
    cases hidden with
    | true | false => exact hfl
  · refine hgo w c ⟨⟨c, hc, .refl c⟩, h.screens⟩ hsound fun hpip => ⟨?_, hl hpip c hc⟩
    exact eq_false_of_ne_true fun hf => absurd (by rw [hpip, hf]; rfl) hx

end Jwm
