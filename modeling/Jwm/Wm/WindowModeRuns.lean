/-
Runs of the window modes: fullscreen, PiP and minimize requests in any order, between changes of the viewed tags, with a
backend that may fail at every call.
-/
import Jwm.Wm.ModeTransitions

namespace Jwm

open WMMonitor

variable {env : ModeEnv} {key : ClientKey} {mon : MonitorKey} {r : Rect} {sticky : Bool}

/-! ## Focus moves no window -/

/-- The clients and the views stay, and the window stays in the focus stacks it is in. -/
structure Refocus (key : ClientKey) (s s' : WMState) : Prop where
  clients : s'.clients = s.clients
  monitors : ∀ m, (s'.monitors.get? m).map WMMonitor.outlook = (s.monitors.get? m).map WMMonitor.outlook
  focusStacks : ∀ m, key ∈ (s.monitorStack.get? m).getD [] → key ∈ (s'.monitorStack.get? m).getD []

theorem Refocus.refl (s : WMState) : Refocus key s s := ⟨rfl, fun _ => rfl, fun _ h => h⟩

theorem Refocus.trans {a b c : WMState} (h : Refocus key a b) (h' : Refocus key b c) : Refocus key a c :=
  ⟨h'.clients.trans h.clients, fun m => (h'.monitors m).trans (h.monitors m),
    fun m hm => h'.focusStacks m (h.focusStacks m hm)⟩

variable {s : WMState}

variable {s' : WMState} {E : ModeWorld → Prop}

theorem Refocus.atHome (hf : Refocus key s s') (h : AtHome key mon r sticky s) : AtHome key mon r sticky s' := by
  obtain ⟨c, hc, hr⟩ := h.client
  obtain ⟨m, hm, hi⟩ := h.monitor
  obtain ⟨m', hm', hg, -⟩ := of_outlook (hf.monitors mon) hm
  exact ⟨⟨c, by rw [hf.clients]; exact hc, hr⟩, ⟨m', hm', by rw [hg]; exact hi⟩, hf.focusStacks mon h.focusStack⟩

theorem Refocus.homed (hf : Refocus key s s') (h : Homed key mon r sticky s) : Homed key mon r sticky s' := by
  obtain ⟨c, hc, hr⟩ := h.client
  obtain ⟨m, hm, -⟩ := h.monitor
  obtain ⟨m', hm', -, hact⟩ := of_outlook (hf.monitors mon) hm
  have hplace := h.inPlace hc hr.mon hm
  have hc' : s'.clients.get? key = some c := by rw [hf.clients]; exact hc
  refine ⟨hf.atHome h.toAtHome, fun c₁ hc₁ hv => ?_, fun c₁ hc₁ hid => ?_⟩
  · cases hc'.symm.trans hc₁
    rw [visibleByKey_eq hc' hr.mon hm', hact] at hv
    exact hplace.shown hv
  · cases hc'.symm.trans hc₁
    exact hplace.minimized hid

theorem outlook_modify {m : MonitorKey} {f : WMMonitor → WMMonitor}
    (h : ∀ x, (f x).outlook = x.outlook) (m' : MonitorKey) :
    ((s.monitors.modify m f).get? m').map outlook = (s.monitors.get? m').map outlook := by
  rw [KeyMap.get?_modify]
  split
  · rename_i hm
    rw [Option.map_map, hm]
    exact congrArg (fun g => (s.monitors.get? m).map g) (funext h)
  · rfl

theorem refocus_updateMonitorSelection (s : WMState) (client : Option ClientKey) :
    Refocus key s (updateMonitorSelection s client) := by
  unfold updateMonitorSelection
  cases s.selMon with
  | none => exact .refl s
  | some m =>
    exact ⟨rfl, fun m' => outlook_modify (f := (·.setSelectedClientForCurrentTag client)) (fun _ => rfl) m', fun _ h => h⟩

theorem refocus_setClientFocusByKey (s : WMState) (k : ClientKey) : Refocus key s (setClientFocusByKey s k) := by
  unfold setClientFocusByKey
  cases hk : s.monOf k with
  | none => exact .refl s
  | some m =>
    have hk' : ({ s with selMon := some m } : WMState).monOf k = some m := hk
    dsimp only
    rw [detachstack_eq hk', attachstack]
    have hmon : ∀ (ms : KeyMap MonitorKey WMMonitor) (st : KeyMap MonitorKey (List ClientKey)) (sel : Option MonitorKey),
        ({ s with monitors := ms, monitorStack := st, selMon := sel } : WMState).monOf k = some m := fun _ _ _ => hk
    rw [hmon]
    refine ⟨rfl, fun m' => outlook_modify (fun x => ?_) m', fun m' hin => ?_⟩
    · unfold reselect
      split <;> rfl
    · rw [KeyMap.get?_modify, KeyMap.get?_modify]
      by_cases hm : m' = m
      · rw [if_pos hm, if_pos hm]
        cases hl : s.monitorStack.get? m' with
        | none =>
          rw [hl] at hin
          cases hin
        | some l =>
          rw [hl] at hin
          by_cases hx : key = k
          · rw [hx]
            exact List.mem_cons_self
          · exact List.mem_cons_of_mem k ((List.mem_erase_of_ne hx).2 hin)
      · rw [if_neg hm, if_neg hm]
        exact hin

/-- Resting is kept, and so is whether the window is minimized. -/
structure KeepsHomed (key : ClientKey) (mon : MonitorKey) (r : Rect) (sticky : Bool) (w w' : ModeWorld) : Prop where
  homed : Homed key mon r sticky w.state → Homed key mon r sticky w'.state
  hidden : (w'.state.clients.get? key).map (·.state.isHidden) = (w.state.clients.get? key).map (·.state.isHidden)

theorem patient_keepsHomed (key : ClientKey) (mon : MonitorKey) (r : Rect) (sticky : Bool) :
    Patient (KeepsHomed key mon r sticky) where
  refl _ := ⟨id, rfl⟩
  trans h h' := ⟨fun hh => h'.homed (h.homed hh), h'.hidden.trans h.hidden⟩
  ask _ := ⟨id, rfl⟩

variable {w w' : ModeWorld}

theorem Refocus.keepsHomed (hf : Refocus key w.state w'.state) : KeepsHomed key mon r sticky w w' :=
  ⟨hf.homed, by rw [hf.clients]⟩

theorem patient_refocus (key : ClientKey) : Patient (fun w w' => Refocus key w.state w'.state) where
  refl w := .refl w.state
  trans h h' := h.trans h'
  ask w := .refl w.state

theorem focus_refocus (env : ModeEnv) (target : Option ClientKey) :
    Always (fun w w' => Refocus key w.state w'.state) (env.focus target) := by
  have hR := patient_refocus key
  refine hR.bind hR.always_getState fun s => hR.bind (always_ite (hR.always_call env) (hR.pure ())) fun _ =>
    hR.bind (always_modify fun w => ?_) fun _ => hR.bind (hR.always_call env) fun _ =>
      always_modify fun w => refocus_updateMonitorSelection w.state _
  cases (target.filter _ <|> findVisibleClient env.locked s) with
  | none => exact .refl w.state
  | some k => exact refocus_setClientFocusByKey w.state k

theorem focus_keepsHomed (env : ModeEnv) (target : Option ClientKey) :
    Always (KeepsHomed key mon r sticky) (env.focus target) := fun w =>
  (focus_refocus env target w).mono (fun _ _ h => h.keepsHomed) fun _ h => h.keepsHomed

/-! ## Minimizing -/

/-- A record that differs only in what resting does not depend on rests as before. -/
theorem homed_modifyClient {f : WMClient → WMClient} (h : Homed key mon r sticky w.state)
    (hf : ∀ c, (f c).bearing = c.bearing)
    (hr : ∀ c m, w.state.clients.get? key = some c → Rests mon r sticky c → c.InPlace m → Rests mon r sticky (f c) ∧
      (f c).InPlace m) : Homed key mon r sticky (w.state.modifyClient key f) := by
  obtain ⟨c, hc, hrc⟩ := h.client
  obtain ⟨m, hm, -⟩ := h.monitor
  obtain ⟨hr', hp'⟩ := hr c m.activeTags hc hrc (h.inPlace hc hrc.mon hm)
  have hget : (w.state.modifyClient key f).clients.get? key = some (f c) := by
    rw [WMState.modifyClient_get?_of hc, if_pos rfl]
  exact .of_steady h.toAtHome hm (steady_modifyClient key hf w) hget hr' hp'

variable {c : WMClient}

theorem Rests.withState (h : Rests mon r sticky c) (hidden : Bool) (order : Nat) (tags : BitVec 32) :
    Rests mon r sticky { c with state := { c.state with isHidden := hidden, minimizedOrder := order, tags } } :=
  { mon := h.mon, exclusive := h.exclusive, floating := h.floating, returns := h.returns, sticky := h.sticky
    shows := h.shows, home := h.home, parked := h.parked, unmaximized := h.unmaximized, dock := h.dock
    swallowed := h.swallowed, hints := h.hints }

theorem Rests.parkVisible (h : Rests mon r sticky c) (x : Int) :
    Rests mon r sticky { c with geometry := c.geometry.parkAt c.geometry.visibleRect x } :=
  h.rerect rfl h.hints rfl (fun _ => rfl) rfl fun hf hp => h.home_plain hf hp

open ModeEnv

theorem allocateMinimizedOrder_state (w : ModeWorld) : Ensures allocateMinimizedOrder w
    (fun _ w' => w'.state = w.state) (fun w' => w'.state = w.state) :=
  ensures_bind (ensures_get (ensures_ite (fun _ => ensures_bind rfl) fun _ => ensures_throw rfl))

theorem KeepsHomed.of_state (h : w'.state = w.state) : KeepsHomed key mon r sticky w w' :=
  ⟨fun hh => by rw [h]; exact hh, by rw [h]⟩

theorem allocateMinimizedOrder_keepsHomed : Always (KeepsHomed key mon r sticky) allocateMinimizedOrder :=
  fun w => (allocateMinimizedOrder_state w).mono (fun _ _ h => .of_state h) fun _ h => .of_state h

theorem reconcile_keepsHomed : Always (KeepsHomed key mon r sticky) (reconcileExistingMinimizedSnapshot key) :=
  have hR := patient_keepsHomed key mon r sticky
  hR.bind (hR.always_getClient key) fun _ => always_ite
    (hR.bind allocateMinimizedOrder_keepsHomed fun order => always_modify fun w =>
      ⟨fun h => homed_modifyClient h (fun _ => rfl) fun _ _ _ hr hp => ⟨hr.withState _ order _, hp.shown, hp.minimized⟩,
        map_modifyClient w.state key key fun _ => rfl⟩) (hR.pure ())

theorem retryPark_homed (h : Homed key mon r sticky w.state)
    (hid : ∀ c, w.state.clients.get? key = some c → c.state.isHidden = true) :
    Ensures (env.retryX11MinimizedClientPark key) w (fun _ => HomedIn key mon r sticky)
      (HomedIn key mon r sticky) := by
  obtain ⟨c, hc, hr⟩ := h.client
  refine ensures_ite (fun _ => ensures_bind (ensures_ask (ensures_ite (fun _ => ?_) fun _ => ensures_pure h)))
    fun _ => ensures_pure h
  refine ensures_bind (ensures_getState (ensures_bind (ensures_getClient (w := { w with asked := w.asked + 1 }) hc ?_)))
  generalize hiddenXLeftOfDesktop (desktopLeftEdge w.state) c.geometry.totalWidth = x
  refine ensures_bind (ensures_modifyState ?_)
  suffices hpark : Homed key mon r sticky (w.state.modifyClient key fun c =>
      { c with geometry := { c.geometry with rect := { c.geometry.rect with x }, hiddenX := some x } }) from
    ensures_bind (ensures_call (ensures_call hpark hpark) hpark)
  refine homed_modifyClient h (fun _ => rfl) fun c' m hc' hr' hp' => ?_
  -- it returns to the parked slot, whatever the live rectangle is
  have hslot := hp'.minimized (hid c' hc')
  refine ⟨hr'.rerect rfl hr'.hints hslot.symm (fun _ => rfl) rfl fun hf hpip => ?_, hp'.shown, hp'.minimized⟩
  have hv := hr'.home_plain hf hpip
  obtain ⟨v, hv'⟩ := Option.isSome_iff_exists.1 hslot
  unfold ClientGeometry.visibleRect at hv ⊢
  rw [hv'] at hv ⊢
  exact hv

/-- The flag of a minimized or restored window is set; the arrange parks it or shows it. -/
theorem setHidden_homed (hn : NoHints env key) (h : Homed key mon r sticky w.state) (hidden : Bool)
    (order : Nat) (hw' : w'.state = w.state.modifyClient key fun c =>
      { c with state := { c.state with isHidden := hidden, minimizedOrder := order } }) :
    Ensures (env.arrange (some mon)) w' (fun _ => HomedIn key mon r sticky) E := by
  obtain ⟨c, hc, hr⟩ := h.client
  refine arrange_homed hn (h.toAtHome.of_steady ?_ ⟨_, ?_, hr.withState hidden order c.state.tags⟩)
  · rw [hw']
    exact steady_modifyClient key (f := fun c : WMClient =>
      { c with state := { c.state with isHidden := hidden, minimizedOrder := order } }) (fun _ => rfl) w
  · rw [hw', WMState.modifyClient_get?_of hc, if_pos rfl]

theorem Always.homed {α : Type} {x : Modes α} (hx : Always (KeepsHomed key mon r sticky) x)
    (h : Homed key mon r sticky w.state) :
    Ensures x w (fun _ => HomedIn key mon r sticky) (HomedIn key mon r sticky) :=
  (hx w).mono (fun _ _ hk => hk.homed h) fun _ hk => hk.homed h

open Always

theorem settleMinimized_homed (hn : NoHints env key) (h : Homed key mon r sticky w.state)
    (order : Nat) (hw' : w'.state = w.state.modifyClient key fun c =>
      { c with state := { c.state with isHidden := true, minimizedOrder := order } }) (selected : Bool) :
    Ensures (env.settleMinimized key (some mon) selected) w' (fun _ => HomedIn key mon r sticky)
      (HomedIn key mon r sticky) := by
  have hR := patient_keepsHomed key mon r sticky
  refine (setHidden_homed hn h true order hw').bind (fun _ w₁ h₁ => ?_) fun _ h => h
  refine homed (hR.bind (hR.rollingBack (always_ite ?_ (hR.pure ())) (hR.always_verifyParked env)) fun _ =>
    hR.bind (always_ite (focus_keepsHomed env none) (hR.pure ())) fun _ => hR.always_requestIconify env key) h₁
  exact hR.bind (always_attempt (focus_keepsHomed env none)) fun _ => hR.pure ()

/-- The restore point remembers the window in the focus stack it was in. -/
def RestorePoint.Remembers (previous : ModeEnv.RestorePoint) (key : ClientKey) : Prop :=
  ∀ l, previous.monitorStack = some l → key ∈ l

variable {previous : ModeEnv.RestorePoint}

theorem refocus_reinstallFocus (hp : RestorePoint.Remembers previous key)
    (s : WMState) (m : Option MonitorKey) : Refocus key s (reinstallFocus s m previous) := by
  unfold reinstallFocus
  cases m with
  | none => exact ⟨rfl, fun _ => rfl, fun _ h => h⟩
  | some m =>
    cases hl : previous.monitorStack with
    | none =>
      exact ⟨rfl, fun m' => outlook_modify (f := (·.setSelectedClientForCurrentTag previous.targetSelection))
        (fun _ => rfl) m', fun _ h => h⟩
    | some l =>
      refine ⟨rfl, fun m' => outlook_modify (f := (·.setSelectedClientForCurrentTag previous.targetSelection))
        (fun _ => rfl) m', fun m' hin => ?_⟩
      rw [KeyMap.get?_modify]
      split
      · cases hs : s.monitorStack.get? m' with
        | none =>
          rw [hs] at hin
          cases hin
        | some _ => exact hp l hl
      · exact hin

theorem rollbackFailedMinimizedRestore_homed (hn : NoHints env key)
    (h : Homed key mon r sticky w.state) (hp : RestorePoint.Remembers previous key)
    (repair : Bool) :
    Ensures (env.rollbackFailedMinimizedRestore key previous repair) w (fun _ => HomedIn key mon r sticky)
      (HomedIn key mon r sticky) := by
  obtain ⟨c, hc, hr⟩ := h.client
  have hR := patient_keepsHomed key mon r sticky
  refine ensures_bind (ensures_getState (ensures_bind (ensures_getClient hc ?_)))
  dsimp only
  generalize hiddenXLeftOfDesktop (desktopLeftEdge w.state) _ = x
  refine ensures_bind (ensures_modifyClient hc fun hget => ?_)
  rw [hr.mon]
  refine (arrange_homed hn (h.toAtHome.of_steady ?_ ⟨_, hget, ?_⟩)).bind (fun _ w₁ h₁ => ?_) fun _ h => h
  · exact steady_modifyClient key (f := fun c' : WMClient =>
      { c' with
        geometry := c'.geometry.parkAt c.geometry.visibleRect x
        state := { c'.state with isHidden := true, minimizedOrder := previous.minimizedOrder } }) (fun _ => rfl) w
  · exact (hr.parkVisible x).withState true previous.minimizedOrder _
  · refine homed (hR.bind (always_ite ?_ (hR.pure ())) fun _ =>
      hR.bind (always_attempt (hR.always_requestIconify env key)) fun _ => hR.pure ()) h₁
    exact hR.bind (always_modify fun w => (refocus_reinstallFocus hp w.state (some mon)).keepsHomed) fun _ =>
      hR.bind hR.always_getState fun _ => hR.bind (always_attempt (focus_keepsHomed env _)) fun _ => hR.pure ()

theorem settleRestored_homed (hn : NoHints env key) (h : Homed key mon r sticky w.state)
    (order : Nat) (hw' : w'.state = w.state.modifyClient key fun c =>
      { c with state := { c.state with isHidden := false, minimizedOrder := order } })
    (hp : RestorePoint.Remembers previous key) :
    Ensures (env.settleRestored key (some mon) previous) w' (fun _ => HomedIn key mon r sticky)
      (HomedIn key mon r sticky) := by
  have hR := patient_keepsHomed key mon r sticky
  have hcall := hR.always_call env
  have hback := fun (repair : Bool) (w : ModeWorld) (hw : Homed key mon r sticky w.state) =>
    rollbackFailedMinimizedRestore_homed hn hw hp repair
  refine (setHidden_homed hn h false order hw').bind (fun _ w₁ h₁ => ?_) fun _ h => h
  refine (ensures_rollingBack (homed ?_ h₁) (hback false)).bind (fun _ w₂ h₂ => ?_) fun _ h => h
  · exact always_ite (hR.bind hcall fun _ => hcall) (hR.pure ())
  refine (ensures_rollingBack (homed (focus_keepsHomed env (some key)) h₂) (hback true)).bind (fun _ w₃ h₃ => ?_)
    fun _ h => h
  exact ensures_rollingBack (homed hcall h₃) (hback true)

theorem restorePoint_remembers (h : Homed key mon r sticky s) (hmon : c.mon = some mon) :
    RestorePoint.Remembers (restorePoint s c) key := by
  intro l hl
  have hk := h.focusStack
  have hl : c.mon.bind s.monitorStack.get? = some l := hl
  rw [hmon, Option.bind_some] at hl
  rw [hl] at hk
  exact hk

theorem setClientMinimized_homed (hn : NoHints env key) (h : Homed key mon r sticky w.state) (minimized : Bool) :
    Ensures (env.setClientMinimized key minimized) w (fun _ => HomedIn key mon r sticky)
      (HomedIn key mon r sticky) := by
  obtain ⟨c, hc, hr⟩ := h.client
  have hR := patient_keepsHomed key mon r sticky
  refine ensures_bind (ensures_getClient hc ?_)
  refine Ensures.bind (P := fun _ => HomedIn key mon r sticky) (F := HomedIn key mon r sticky)
    (ensures_ite (fun hx => ?_) fun _ => ensures_pure h) (fun _ w₁ h₁ => ?_) fun _ h => h
  · rw [Bool.and_eq_true] at hx
    exact retryPark_homed h fun c' hc' => by cases hc.symm.trans hc'; exact hx.2
  refine (homed reconcile_keepsHomed h₁).bind (fun _ w₂ h₂ => ?_) fun _ h => h
  obtain ⟨c₂, hc₂, hr₂⟩ := h₂.client
  refine ensures_bind (ensures_getClient hc₂ (ensures_bind (ensures_getState ?_)))
  generalize hsel : ((w₂.state.selMon.bind w₂.state.monitors.get?).any (·.sel = some key)) = selected
  -- until the flag is written the window stays what it is
  refine ((always_ite (hR.bind allocateMinimizedOrder_keepsHomed fun _ => hR.pure _) (hR.pure none)) w₂).bind
    (fun order w₃ h₃ => ?_) fun _ hk => hk.homed h₂
  refine ((hR.always_publishMinimized env c₂ _ minimized order) w₃).bind (fun _ w₄ h₄ => ?_) fun _ hk =>
    hk.homed (h₃.homed h₂)
  have hkeep := (patient_keepsHomed key mon r sticky).trans h₃ h₄
  have hw₄ := hkeep.homed h₂
  refine ensures_ite (fun hsame => ?_) fun _ => ?_
  · have hid : ∀ {w : ModeWorld}, KeepsHomed key mon r sticky w₂ w → minimized = true →
        ∀ c', w.state.clients.get? key = some c' → c'.state.isHidden = true := fun hk hm c' hc' => by
      have hh := hk.hidden
      rw [hc', hc₂] at hh
      have hne : c₂.state.isHidden = minimized := by
        rw [Bool.not_eq_true', bne_eq_false_iff_eq] at hsame
        exact hsame
      rw [← hm, ← hne]
      exact Option.some.inj hh
    refine ensures_bind (ensures_bind ?_)
    refine ((always_ite (focus_keepsHomed env none) (hR.pure ())) w₄).mono (fun _ w₅ h₅ => ?_) fun _ hk => hk.homed hw₄
    have hw₅ := hR.trans hkeep h₅
    refine ensures_ite (fun hm => ?_) fun _ => ensures_pure (ensures_pure (hw₅.homed h₂))
    refine (retryPark_homed (hw₅.homed h₂) (hid hw₅ hm)).bind (fun _ w₆ h₆ => ?_) fun _ h => h
    exact (homed (hR.always_requestIconify env key) h₆).mono (fun _ _ h => ensures_pure h) fun _ h => h
  · refine ensures_bind (ensures_modifyState ?_)
    rw [hr₂.mon]
    cases minimized with
    | true =>
      exact ensures_bind ((settleMinimized_homed hn hw₄ _ rfl selected).mono (fun _ _ h => ensures_pure h) fun _ h => h)
    | false =>
      exact ensures_bind ((settleRestored_homed hn hw₄ _ rfl (restorePoint_remembers h₂ hr₂.mon)).mono
        (fun _ _ h => ensures_pure h) fun _ h => h)

/-! ## Runs -/

/-- `view_on_monitor` on a mask of configured tags; the refocus comes before the arrange. -/
def ModeEnv.viewOnMonitor (env : ModeEnv) (mon : MonitorKey) (targetMask : BitVec 32) : Modes Unit := do
  let s ← getState
  if targetMask = 0 || (s.monitors.get? mon).any (·.activeTags == targetMask) then pure ()
  else
    modifyState fun s => { s with monitors := s.monitors.modify mon fun m => (m.viewTag targetMask false).1 }
    let s ← getState
    let toFocus := ((s.monitors.get? mon).bind getSelectedClientForCurrentTag).filter (s.monOf · == some mon)
    modifyState (updateStickyTags · mon)
    (if s.selMon = some mon then env.focus toFocus else pure ())
    env.arrange (some mon)
    env.call

/-- A request for the window, or a change of the tags its monitor views. -/
inductive ModeEvent where
  | setfullscreen (fullscreen : Bool)
  | setClientPip (pip : Bool)
  | setClientMinimized (minimized : Bool)
  | view (targetMask : BitVec 32)
deriving DecidableEq

def ModeEnv.perform (env : ModeEnv) (key : ClientKey) (mon : MonitorKey) : ModeEvent → Modes Unit
  | .setfullscreen fullscreen => env.setfullscreen key fullscreen
  | .setClientPip pip => do let _ ← env.setClientPip key pip
  | .setClientMinimized minimized => do let _ ← env.setClientMinimized key minimized
  | .view targetMask => env.viewOnMonitor mon targetMask

def ModeEnv.step (env : ModeEnv) (key : ClientKey) (mon : MonitorKey) (w : ModeWorld) (e : ModeEvent) :
    ModeWorld × Bool :=
  match env.perform key mon e w with
  | .ok _ w' => (w', true)
  | .error _ w' => (w', false)

variable {e : ModeEvent}

theorem ensures_step {Q : Unit → ModeWorld → Prop} (h : Ensures (env.perform key mon e) w Q E) :
    if (env.step key mon w e).2 then Q () (env.step key mon w e).1 else E (env.step key mon w e).1 := by
  unfold Ensures at h
  unfold ModeEnv.step
  cases hx : env.perform key mon e w with
  | ok a w' | error a w' => rw [hx] at h; exact h

/-- The step does not lose where the window rests: a fullscreen request meets it in view, and a change of the
view can hand the focus on before it arranges. -/
def KeepsView (env : ModeEnv) (key : ClientKey) (w : ModeWorld) : ModeEvent → Prop
  | .setfullscreen true => EntersInView env key w.state
  | .view _ => env.answer w.asked = true ∧ env.answer (w.asked + 1) = true
  | _ => True

theorem entersInView_iff : EntersInView env key s ↔
    (s.clients.get? key).all (fun c => c.mon.all fun mon => (s.monitors.get? mon).all fun m =>
      decide (c.state.isFullscreen = true ∨ c.state.isHidden = true ∨ env.restartAdopted key = true ∨
        c.restsInView m.activeTags = true ∨ (c.state.isPip = false ∧ c.geometry.hiddenRestoreRect = none))) = true := by
  simp only [Option.all_eq_true, decide_eq_true_eq]
  exact ⟨fun h c hc mon hmon m hm => h c m mon hc hmon hm, fun h c m mon hc hmon hm => h c hc mon hmon m hm⟩

instance {s : WMState} : Decidable (EntersInView env key s) := decidable_of_iff _ entersInView_iff.symm

instance {w : ModeWorld} : (e : ModeEvent) → Decidable (KeepsView env key w e)
  | .setfullscreen true => inferInstanceAs (Decidable (EntersInView env key w.state))
  | .setfullscreen false | .setClientPip _ | .setClientMinimized _ => inferInstanceAs (Decidable True)
  | .view _ => inferInstanceAs (Decidable (_ ∧ _))

theorem focus_ok (h₁ : env.answer w.asked = true) (h₂ : env.answer (w.asked + 1) = true) (target : Option ClientKey) :
    Ensures (env.focus target) w (fun _ w' => Refocus key w.state w'.state) (fun _ => False) := by
  suffices hok : Ensures (env.focus target) w (fun _ _ => True) (fun _ => False) from
    (hok.and (focus_refocus env target w)).mono (fun _ _ h => h.2) fun _ h => h.1
  have hcall : ∀ w' : ModeWorld, env.answer w'.asked = true → ∀ {Q : Unit → ModeWorld → Prop},
      Q () { w' with asked := w'.asked + 1 } → Ensures env.call w' Q (fun _ => False) := fun w' h _ hq => by
    refine ensures_bind (ensures_ask ?_)
    rw [h]
    exact hq
  refine ensures_bind (ensures_getState (ensures_bind (ensures_ite (fun _ => hcall w h₁ ?_) fun _ => ensures_pure ?_)))
  · exact ensures_bind (ensures_modifyState (ensures_bind (hcall _ (by exact h₂) trivial)))
  · exact ensures_bind (ensures_modifyState (ensures_bind (hcall _ (by exact h₁) trivial)))

theorem geometry_viewTag (m : WMMonitor) (mask : BitVec 32) (toggle : Bool) :
    (m.viewTag mask toggle).1.geometry = m.geometry := by
  unfold viewTag
  dsimp only
  split
  · rfl
  · unfold applyPertagContext
    split
    · rfl
    · rfl

theorem atHome_updateStickyTags (h : AtHome key mon r sticky s) (m : MonitorKey) :
    AtHome key mon r sticky (updateStickyTags s m) := by
  unfold updateStickyTags
  cases s.monitors.get? m with
  | none => exact h
  | some monitor =>
    generalize (s.monitorClients.get? m).getD [] = l
    induction l generalizing s with
    | nil => exact h
    | cons k l ih =>
      refine ih ⟨?_, h.monitor, h.focusStack⟩
      obtain ⟨c, hc, hr⟩ := h.client
      by_cases hk : key = k
      · subst hk
        refine ⟨_, by rw [WMState.modifyClient_get?_of hc, if_pos rfl], ?_⟩
        split
        · exact hr.withState _ _ _
        · exact hr
      · refine ⟨c, ?_, hr⟩
        rw [WMState.modifyClient_get?, if_neg hk]
        exact hc

theorem viewOnMonitor_homed (hn : NoHints env key) (h : Homed key mon r sticky w.state)
    (targetMask : BitVec 32) (h₁ : env.answer w.asked = true) (h₂ : env.answer (w.asked + 1) = true) :
    Ensures (env.viewOnMonitor mon targetMask) w (fun _ => HomedIn key mon r sticky)
      (HomedIn key mon r sticky) := by
  refine ensures_bind (ensures_getState (ensures_ite (fun _ => ensures_pure h) fun _ => ?_))
  refine ensures_bind (ensures_modifyState (ensures_bind (ensures_getState (ensures_bind (ensures_modifyState ?_)))))
  obtain ⟨m, hm, hi⟩ := h.monitor
  -- the view changes, the window's record and the monitor's rectangles do not
  have hview : AtHome key mon r sticky
      { w.state with monitors := w.state.monitors.modify mon fun m => (m.viewTag targetMask false).1 } := by
    refine ⟨h.client, ⟨(m.viewTag targetMask false).1, ?_, by rw [geometry_viewTag]; exact hi⟩, h.focusStack⟩
    rw [KeyMap.get?_modify, if_pos rfl, hm]
    rfl
  have hsticky := atHome_updateStickyTags hview mon
  refine Ensures.bind (P := fun _ w' => AtHome key mon r sticky w'.state) (F := fun _ => False) ?_ (fun _ w₁ h₁ => ?_)
    fun _ h => h.elim
  · refine ensures_ite (fun _ => ?_) fun _ => ensures_pure hsticky
    refine (focus_ok ?_ ?_ _).mono (fun _ _ hf => hf.atHome hsticky) fun _ h => h
    · exact h₁
    · exact h₂
  · exact (arrange_homed hn h₁).bind (fun _ w₂ h₂ => ensures_call h₂ h₂) fun _ h => h

theorem step_homed (hn : NoHints env key) (h : Homed key mon r sticky w.state)
    (he : KeepsView env key w e) : Homed key mon r sticky (env.step key mon w e).1.state := by
  have hof : Ensures (env.perform key mon e) w (fun _ => HomedIn key mon r sticky)
      (HomedIn key mon r sticky) := by
    cases e with
    | setfullscreen fullscreen =>
      exact setfullscreen_homed hn h fun hf => by subst hf; exact he
    | setClientPip pip => exact (setClientPip_homed hn h pip).bind (fun _ _ h => ensures_pure h) fun _ h => h
    | setClientMinimized minimized =>
      exact (setClientMinimized_homed hn h minimized).bind (fun _ _ h => ensures_pure h) fun _ h => h
    | view targetMask => exact viewOnMonitor_homed hn h targetMask he.1 he.2
  have hs := ensures_step hof
  rwa [ite_self] at hs

/-- An ordinary floating window `c`, unmaximized and in neither mode, inside the work area of its monitor. -/
structure Settled (key : ClientKey) (mon : MonitorKey) (c : WMClient) (s : WMState) : Prop where
  client : s.clients.get? key = some c
  owner : c.mon = some mon
  inside : ∃ m, s.monitors.get? mon = some m ∧ c.geometry.rect.Inside m.geometry
  focusStack : key ∈ (s.monitorStack.get? mon).getD []
  floating : c.state.isFloating = true
  fullscreen : c.state.isFullscreen = false
  pip : c.state.isPip = false
  restored : c.state.isHidden = false
  unparked : c.geometry.hiddenX = none ∧ c.geometry.hiddenRestoreRect = none
  unmaximized : c.state.maximizedAxes = .none
  ordinary : c.state.isDock = false ∧ c.state.isSwallowed = false
  hints : c.sizeHints.Unset

theorem Settled.homed (h : Settled key mon c s) : Homed key mon c.geometry.rect c.state.isSticky s := by
  have hrests : Rests mon c.geometry.rect c.state.isSticky c := by
    refine { mon := h.owner, exclusive := fun hx => ?_, floating := h.floating, returns := ?_, sticky := ?_
             shows := fun hx => ?_, home := ?_, parked := by rw [h.unparked.1, h.unparked.2]; rfl
             unmaximized := h.unmaximized, dock := h.ordinary.1, swallowed := h.ordinary.2, hints := h.hints }
    · exact absurd (h.fullscreen.symm.trans hx.1) Bool.false_ne_true
    · unfold WMClient.restingFloating
      rw [h.fullscreen, h.pip]
      exact h.floating
    · unfold WMClient.restingSticky
      rw [h.pip]
      rfl
    · exact absurd (h.pip.symm.trans hx) Bool.false_ne_true
    · unfold WMClient.home ClientGeometry.visibleRect
      rw [h.fullscreen, h.pip, h.unparked.2]
      rfl
  refine ⟨⟨⟨c, h.client, hrests⟩, h.inside, h.focusStack⟩, fun c' hc' _ => ?_, fun c' hc' hid => ?_⟩
  · cases h.client.symm.trans hc'
    exact h.unparked.2
  · cases h.client.symm.trans hc'
    exact absurd (h.restored.symm.trans hid) Bool.false_ne_true

/-- What the modes must not lose of the window `c`: never both modes, the resting flags, and the rectangle it
shows in neither mode. -/
def KeepsRest (key : ClientKey) (c : WMClient) (s : WMState) : Prop :=
  ∃ c', s.clients.get? key = some c' ∧ ¬ (c'.state.isFullscreen = true ∧ c'.state.isPip = true) ∧
    c'.restingFloating = c.restingFloating ∧ c'.restingSticky = c.restingSticky ∧
    (isClientVisibleByKey s key = true → c'.state.isFullscreen = false → c'.state.isPip = false →
      c'.geometry.rect = c.geometry.rect)

theorem Homed.keepsRest (hf : c.restingFloating = true) (hs : c.restingSticky = sticky)
    (h : Homed key mon c.geometry.rect sticky s) : KeepsRest key c s := by
  obtain ⟨c', hc', hr⟩ := h.client
  exact ⟨c', hc', hr.exclusive, hr.returns.trans hf.symm, hr.sticky.trans hs.symm, fun hv hfs hp =>
    hr.home_unparked (h.shown c' hc' hv) hfs hp⟩

def ModeEvent.IsMode : ModeEvent → Prop
  | .setfullscreen _ | .setClientPip _ => True
  | _ => False

/-- A fullscreen or PiP request that fails leaves the window as it was, in its place of the list. -/
theorem step_intact (hc : w.state.clients.get? key = some c)
    (he : e.IsMode) (herr : (env.step key mon w e).2 = false) : Intact key c w.state (env.step key mon w e).1.state := by
  have hof : Ensures (env.perform key mon e) w (fun _ _ => True) (fun w' => Intact key c w.state w'.state) := by
    cases e with
    | setfullscreen fullscreen =>
      exact (setfullscreen_intact env hc fullscreen).mono (fun _ _ _ => trivial) fun _ h => h
    | setClientPip pip => exact (setClientPip_intact env hc pip).bind (fun _ _ _ => trivial) fun _ h => h
    | setClientMinimized | view => exact he.elim
  have hs := ensures_step hof
  rwa [herr, if_neg Bool.false_ne_true] at hs

/-- Whatever the modes and the views go through, and whatever calls of the backend fail, the window keeps where it rests as
long as no fullscreen request meets it parked on an unviewed tag; a failed mode request takes nothing from it. -/
theorem modes_keep_rest (env : ModeEnv) (key : ClientKey) (mon : MonitorKey) (w : ModeWorld) (c : WMClient)
    (hn : NoHints env key) (hc : Settled key mon c w.state) :
    (∀ es, Along (KeepsView env key) (env.step key mon) w es → KeepsRest key c (after (env.step key mon) w es).state) ∧
    ∀ (w' : ModeWorld) (e : ModeEvent) (c' : WMClient), w'.state.clients.get? key = some c' → e.IsMode →
      (env.step key mon w' e).2 = false →
      (env.step key mon w' e).1.state.clients.get? key = some c' ∧
        ∀ m, c'.mon = some m → (env.step key mon w' e).1.state.monitorClients.get? m = w'.state.monitorClients.get? m := by
  refine ⟨fun es hes => ?_, fun w' e c' hc' he herr => ?_⟩
  · have hrun := @trace_invariant_along _ _ _ (env.step key mon) (KeepsView env key)
      (fun _ w => Homed key mon c.geometry.rect c.state.isSticky w.state)
      (fun _ _ _ he h => step_homed hn h he) _ hc.homed _ hes
    refine Homed.keepsRest ?_ ?_ hrun
    · unfold WMClient.restingFloating
      rw [hc.fullscreen, hc.pip]
      exact hc.floating
    · unfold WMClient.restingSticky
      rw [hc.pip]
      rfl
  · have hi := @step_intact _ _ mon _ _ _ hc' he herr
    exact ⟨hi.client, hi.list⟩

namespace Sample

def modeKey : ClientKey := ⟨1, 1⟩

def modeMonitor : MonitorKey := ⟨1, 1⟩

def modeEnv : ModeEnv where
  answer _ := true
  normalHints _ := none
  resizeHints := true
  supportsClientList := false
  restartAdopted _ := false
  locked _ := false
  monitorWorkArea s m := (s.monitors.get? m).map (·.rect)
  maximizeWorkArea s m := (s.monitors.get? m).map (·.rect)
  statusBar _ _ := none
  borderPx := 2
  layoutState _ _ := ("[]=", .empty)
  dragged _ _ := false
  layoutResults s m := (tiledKeys s m).attach.map fun key => (key, ((s.monitors.get? m).map (·.rect)).getD ⟨0, 0, 1, 1⟩)

def modeClient : WMClient where
  geometry := { rect := ⟨100, 200, 300, 400⟩, borderW := 2 }
  state := { isFloating := true, tags := 1 }
  mon := some modeMonitor

def modeScreen : WMMonitor := { WMMonitor.new with geometry := ⟨0, 0, 1920, 1080, 0, 0, 1920, 1080⟩, tagSet := fun _ => 1 }

def modeWorld : ModeWorld where
  state := {
    clients := KeyMap.empty.insert modeKey modeClient
    monitors := KeyMap.empty.insert modeMonitor modeScreen
    monitorClients := KeyMap.empty.insert modeMonitor [modeKey]
    monitorStack := KeyMap.empty.insert modeMonitor [modeKey]
    monitorOrder := [modeMonitor]
    selMon := some modeMonitor }
  asked := 0
  nextMinimizedOrder := 1

theorem settled_mode : Settled modeKey modeMonitor modeClient modeWorld.state where
  client := rfl
  owner := rfl
  inside := ⟨modeScreen, rfl, ⟨by decide, by decide, by decide, by decide, ⟨by decide, by decide⟩, by decide, by decide, by decide⟩⟩
  focusStack := by decide
  floating := rfl
  fullscreen := rfl
  pip := rfl
  restored := rfl
  unparked := ⟨rfl, rfl⟩
  unmaximized := rfl
  ordinary := ⟨rfl, rfl⟩
  hints := ⟨rfl⟩

end Sample

open Sample

/-- Into PiP, over to fullscreen, minimized, restored on another view and back. -/
theorem modes_keep_rest_tour : KeepsRest Sample.modeKey Sample.modeClient
    (after (Sample.modeEnv.step Sample.modeKey Sample.modeMonitor) Sample.modeWorld
      [.setClientPip true, .setfullscreen true, .setClientMinimized true, .view 2, .setClientMinimized false, .view 1,
        .setfullscreen false]).state :=
  (modes_keep_rest modeEnv modeKey modeMonitor modeWorld modeClient
    (fun hints h => by cases h) settled_mode).1 _ (by decide +kernel)

/-- A window that is made fullscreen while its tag is out of view comes back where it was parked: at the
monitor's left edge. -/
theorem parked_fullscreen_loses_rest :
    Settled Sample.modeKey Sample.modeMonitor Sample.modeClient Sample.modeWorld.state ∧
      (∀ n, Sample.modeEnv.answer n = true) ∧
      ¬ KeepsRest Sample.modeKey Sample.modeClient
        (after (Sample.modeEnv.step Sample.modeKey Sample.modeMonitor) Sample.modeWorld
          [.view 2, .setfullscreen true, .view 1, .setfullscreen false]).state := by
  refine ⟨settled_mode, fun _ => rfl, ?_⟩
  rintro ⟨c, hc, -, -, -, hrect⟩
  have hend : ((after (modeEnv.step modeKey modeMonitor) modeWorld
      [.view 2, .setfullscreen true, .view 1, .setfullscreen false]).state.clients.get? modeKey).map
        (fun c => (c.state.isFullscreen, c.state.isPip, c.geometry.rect)) = some (false, false, ⟨0, 200, 300, 400⟩) := by
    decide +kernel
  rw [hc] at hend
  simp only [Option.map_some, Option.some.injEq, Prod.mk.injEq] at hend
  obtain ⟨hfs, hpip, hend⟩ := hend
  have hrest := hrect (by decide +kernel) hfs hpip
  rw [hend] at hrest
  exact absurd hrest (by decide)

end Jwm
