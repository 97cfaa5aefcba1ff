/-
What the window modes leave alone: a show, a hide or a resize touches one client and of it only the
rectangles and the cached hints; a mode transition keeps every client's monitor and tags, the monitors'
views and the lists' existence. An arrange never fails.
-/
import Jwm.Wm.WindowModes

namespace Jwm

open Option WMState

/-! ## One client at a time -/

/-- `R` survives questions to the backend. -/
structure Patient (R : ModeWorld → ModeWorld → Prop) : Prop extends Lasting R where
  ask : ∀ w, R w { w with asked := w.asked + 1 }

/-- `R` survives questions to the backend and resizes of the client `key`. -/
structure Lenient (R : ModeWorld → ModeWorld → Prop) (key : ClientKey) : Prop extends Patient R where
  resize : ∀ w f, (∀ c : WMClient, (f c).standing = c.standing) →
    R w { w with state := w.state.modifyClient key f }

theorem standing_refreshClientSizeHints (c : WMClient) (hints : Option SizeHints) :
    (refreshClientSizeHints c hints).standing = c.standing := by
  unfold refreshClientSizeHints
  split
  · rfl
  · cases hints with
    | none | some hints => rfl

namespace Patient

variable {R : ModeWorld → ModeWorld → Prop} (env : ModeEnv)

section

variable (h : Patient R)
include h

theorem returns_ask : Returns R env.ask := fun w => h.ask w

theorem always_ask : Always R env.ask := (h.returns_ask env).always

theorem always_call : Always R env.call :=
  h.bind (h.always_ask env) fun _ => always_ite (h.pure ()) (h.throw _)

theorem returns_getState : Returns R getState := h.returns_bind h.returns_get fun _ => h.returns _

theorem always_getState : Always R getState := h.returns_getState.always

theorem always_getClient (k : ClientKey) : Always R (getClient k) :=
  h.bind h.always_getState fun s => by
    cases s.clients.get? k with
    | none => exact h.throw _
    | some c => exact h.pure c

theorem always_verifyParked : Always R env.verifyX11MinimizedClientParked :=
  always_ite (h.bind (h.always_ask env) fun _ => always_ite (h.bind (h.always_call env) fun _ =>
    h.bind (h.always_ask env) fun _ => always_ite (h.always_call env) (h.pure ())) (h.pure ())) (h.pure ())

theorem always_requestIconify (k : ClientKey) : Always R (env.requestIconifyForHiddenDockClient k) :=
  h.bind (h.always_getClient k) fun _ => always_ite
    (h.bind (h.always_verifyParked env) fun _ => h.always_call env) (h.pure ())

theorem always_publishMinimized (client : WMClient) (monitorNum : Option Int) (minimized : Bool) (order : Option Nat) : Always R
    (env.publishMinimized client monitorNum minimized order) := by
  have hcall := h.always_call env
  refine h.bind ?_ fun _ => h.bind hcall fun _ => h.bind hcall fun _ =>
    always_ite (h.bind hcall fun _ => always_ite hcall (h.pure ())) (h.pure ())
  cases order with
  | none => exact h.pure ()
  | some order => exact always_ite (h.throw _) hcall

end

end Patient

variable {f : WMClient → WMClient} {a b r : WMState} {α : Type} {undo : Modes Unit} {x : Modes α}

namespace Lenient

variable {R : ModeWorld → ModeWorld → Prop} {key : ClientKey} (env : ModeEnv)

section

variable (h : Lenient R key)
include h

theorem returns_modifyClient (hf : ∀ c, (f c).standing = c.standing) : Returns R (modifyClient key f) := fun w => h.resize w f hf

theorem always_modifyClient (hf : ∀ c, (f c).standing = c.standing) : Always R (modifyClient key f) :=
  (h.returns_modifyClient hf).always

theorem always_ensureSizeHintsValid : Always R (env.ensureSizeHintsValid key) :=
  h.bind (h.always_getClient key) fun _ => always_ite
    (h.bind (h.always_call env) fun _ => h.always_modifyClient fun c => standing_refreshClientSizeHints c _) (h.pure ())

theorem always_applyBoundaryConstraints (r : Rect) : Always R (ModeEnv.applyBoundaryConstraints key r) :=
  h.bind (h.always_getClient key) fun c => h.bind h.always_getState fun s => by
    cases c.mon.bind s.monitors.get? with
    | none => exact h.pure r
    | some m => exact h.pure _

theorem always_applySizeHintsConstraints (r : Rect) : Always R (env.applySizeHintsConstraints key r) :=
  h.bind (h.always_getClient key) fun _ => always_ite (h.pure r)
    (h.bind (h.always_ensureSizeHintsValid env) fun _ => h.bind (h.always_getClient key) fun _ => h.pure _)

theorem always_applysizehints (r : Rect) : Always R (env.applysizehints key r) :=
  h.bind (h.always_applyBoundaryConstraints _) fun r => h.bind (h.always_applySizeHintsConstraints env r) fun sized =>
    always_ite (h.pure sized) (h.always_applyBoundaryConstraints sized)

theorem always_resizeclient (r : Rect) : Always R (env.resizeclient key r) :=
  h.bind (h.always_modifyClient fun _ => rfl) fun _ => h.always_call env

theorem returns_resizeClient (r : Rect) : Returns R (env.resizeClient key r) :=
  h.returns_bind (returns_attempt (h.always_applysizehints env r)) fun a => by
    cases a with
    | error e => exact h.returns ()
    | ok r => exact h.returns_bind (returns_attempt (h.always_resizeclient env r)) fun _ => h.returns ()

theorem returns_showClient : Returns R (env.showClient key) :=
  h.returns_bind h.returns_getState fun s => by
    cases s.clients.get? key with
    | none => exact h.returns ()
    | some c =>
      refine h.returns_bind (h.returns_modifyClient fun _ => rfl) fun _ => h.returns_bind (h.returns_ask env) fun _ =>
        h.returns_bind h.returns_getState fun s => ?_
      cases s.clients.get? key with
      | none => exact h.returns ()
      | some c => exact returns_ite (h.returns_resizeClient env _) (h.returns ())

theorem returns_hideClient : Returns R (env.hideClient key) :=
  h.returns_bind h.returns_getState fun s => by
    cases s.clients.get? key with
    | none => exact h.returns ()
    | some c =>
      exact h.returns_bind (h.returns_modifyClient fun _ => rfl) fun _ => h.returns_bind (h.returns_ask env) fun _ =>
        h.returns ()

theorem returns_showhideClient (mon : MonitorKey) : Returns R (env.showhideClient key mon) :=
  h.returns_bind h.returns_getState fun _ =>
    returns_ite (h.returns ()) (returns_ite (h.returns_showClient env) (h.returns_hideClient env))

theorem returns_applyLayoutResult (preconstrained : Bool) (r : Rect) :
    Returns R (env.applyLayoutResult preconstrained key r) := by
  refine h.returns_bind (returns_ite (h.returns _)
    (h.returns_bind (returns_attempt (h.always_applySizeHintsConstraints env _)) fun a => ?_))
    fun r => h.returns_bind (returns_attempt (h.always_resizeclient env r)) fun _ => h.returns ()
  cases a with
  | ok r | error e => exact h.returns _

theorem returns_refitMaximizedClient (area : Rect) : Returns R (env.refitMaximizedClient area key) :=
  h.returns_bind h.returns_getState fun s => by
    cases s.clients.get? key with
    | none => exact h.returns ()
    | some c =>
      refine h.returns_bind (returns_attempt (h.always_applysizehints env _)) fun a => ?_
      cases a with
      | error e => exact h.returns ()
      | ok target =>
        exact h.returns_bind (h.returns_modifyClient fun _ => rfl) fun _ => returns_ite (h.returns_bind h.returns_getState
          fun _ => h.returns_bind (returns_attempt (h.always_resizeclient env target)) fun _ =>
            h.returns_modifyClient fun _ => rfl) (h.returns ())

end

theorem returns_placeBar {s : WMState} (bar : BarPlace s) (h : Lenient R bar.client) : Returns R (env.placeBar bar) :=
  h.returns_bind (returns_attempt (h.bind (always_ite (h.bind (h.always_call env) fun _ => h.always_modifyClient fun _ => rfl)
    (h.pure ())) fun _ => always_ite (h.always_call env) (h.pure ()))) fun _ => h.returns ()

end Lenient

/-! ## The steps of an arrange -/

/-- The state once `arrangemon` has noted the layout of a monitor. -/
abbrev ModeWorld.withLayout (w : ModeWorld) (mon : MonitorKey) (symbol : String)
    (resizes : KeyMap (BitVec 32 × LayoutEnum) (ResizeContext ClientKey)) : ModeWorld :=
  { w with state := { w.state with
      monitors := w.state.monitors.modify mon fun m => { m with ltSymbol := symbol, layoutResizes := resizes } } }

/-- `R` survives each step of an arrange. -/
structure Arranging (env : ModeEnv) (R : ModeWorld → ModeWorld → Prop) : Prop extends Patient R where
  showhide : ∀ key mon, Returns R (env.showhideClient key mon)
  bar : ∀ {s} (bar : BarPlace s), Returns R (env.placeBar bar)
  layout : ∀ w mon symbol resizes, R w (w.withLayout mon symbol resizes)
  draw : ∀ key lt, Returns R (modifyClient key (env.drawTile lt))
  hint : ∀ key, Always R (env.ensureSizeHintsValid key)
  tile : ∀ preconstrained key r, Returns R (env.applyLayoutResult preconstrained key r)
  refit : ∀ area key, Returns R (env.refitMaximizedClient area key)

namespace Arranging

variable {R : ModeWorld → ModeWorld → Prop} {env : ModeEnv} (h : Arranging env R)
include h

theorem syncSecondaryBarPosition (mon : MonitorKey) : Returns R (env.syncSecondaryBarPosition mon) :=
  h.returns_bind h.returns_getState fun s => by
    cases env.statusBar s mon with
    | none => exact h.returns ()
    | some bar => exact h.bar bar

theorem arrangemon (mon : MonitorKey) : Returns R (env.arrangemon mon) := by
  refine h.returns_bind h.returns_getState fun s => ?_
  cases s.monitors.get? mon with
  | none => exact h.returns ()
  | some m =>
    refine h.returns_bind (returns_modify fun w => h.layout w mon _ _) fun _ => returns_ite (h.returns ()) ?_
    refine h.returns_bind (h.returns_forM (fun key => h.draw key _) _) fun _ => h.returns_bind (returns_ite
      (h.returns_forM (fun key => ?_) _) (h.returns _)) fun _ => h.returns_bind h.returns_getState fun s =>
      h.returns_forM (fun e => h.tile _ _ _) _
    exact h.returns_bind (returns_attempt (h.hint key)) fun _ => h.returns _

theorem refitMaximizedClients (mon : MonitorKey) : Returns R (env.refitMaximizedClients mon) :=
  h.returns_bind h.returns_getState fun s => by
    cases env.maximizeWorkArea s mon with
    | none => exact h.returns ()
    | some area => exact h.returns_forM (fun key => h.refit area key) _

theorem placeMonitor (mon : MonitorKey) : Returns R (env.placeMonitor mon) :=
  h.returns_bind (h.arrangemon mon) fun _ => h.returns_bind (h.refitMaximizedClients mon) fun _ =>
    h.returns_bind (h.returns_ask env) fun _ => h.returns ()

theorem arrange (target : Option MonitorKey) : Returns R (env.arrange target) :=
  h.returns_bind h.returns_getState fun _ => h.returns_bind (h.returns_forM (fun mon =>
    h.returns_bind h.returns_getState fun _ => h.returns_forM (fun key => h.showhide key mon) _) _) fun _ =>
      h.returns_bind (h.returns_forM h.syncSecondaryBarPosition _) fun _ => h.returns_forM h.placeMonitor _

end Arranging

/-! ## Arranging -/

/-- What an arrange keeps of the worlds it goes through. -/
abbrev ArrangedWorlds (w w' : ModeWorld) : Prop := Arranged w.state w'.state

theorem Arranged.trans {c : WMState} (h : Arranged a b) (h' : Arranged b c) : Arranged a c where
  clients k := (h'.clients k).trans (h.clients k)
  monitors m := (h'.monitors m).trans (h.monitors m)
  lists := h'.lists.trans h.lists
  focusStacks := h'.focusStacks.trans h.focusStacks

theorem map_modifyClient {γ : Type} (s : WMState) (key k : ClientKey) {g : WMClient → γ}
    (h : ∀ c, g (f c) = g c) : ((s.modifyClient key f).clients.get? k).map g = (s.clients.get? k).map g := by
  rw [modifyClient_get?]
  split
  · rename_i hk
    rw [hk, Option.map_map]
    exact congrArg (fun g => (s.clients.get? key).map g) (funext h)
  · rfl

theorem lenient_arranged (key : ClientKey) : Lenient ArrangedWorlds key where
  refl w := .refl w.state
  trans h h' := h.trans h'
  ask w := .refl w.state
  resize w _ hf := ⟨fun k => map_modifyClient w.state key k hf, fun _ => rfl, rfl, rfl⟩

theorem lenient_other {key k : ClientKey} (hk : k ≠ key) :
    Lenient (fun w w' => w'.state.clients.get? key = w.state.clients.get? key) k where
  refl _ := rfl
  trans h h' := h'.trans h
  ask _ := rfl
  resize w _ _ := by
    rw [modifyClient_get?, if_neg (Ne.symm hk)]

variable (env : ModeEnv)

theorem arranging_arranged : Arranging env ArrangedWorlds where
  toPatient := (lenient_arranged ⟨0, 0⟩).toPatient
  showhide key mon := (lenient_arranged key).returns_showhideClient env mon
  bar bar := Lenient.returns_placeBar env bar (lenient_arranged bar.client)
  layout w mon symbol resizes :=
    { clients := fun _ => rfl
      monitors := fun m => by
        rw [KeyMap.get?_modify]
        split
        · rename_i hm
          rw [hm, Option.map_map]
          rfl
        · rfl
      lists := rfl
      focusStacks := rfl }
  draw key _ := (lenient_arranged key).returns_modifyClient fun _ => rfl
  hint key := (lenient_arranged key).always_ensureSizeHintsValid env
  tile preconstrained key r := (lenient_arranged key).returns_applyLayoutResult env preconstrained r
  refit area key := (lenient_arranged key).returns_refitMaximizedClient env area

/-- An arrange does not fail, and leaves lists, owners, flags and views as they were. -/
theorem returns_arrange (target : Option MonitorKey) : Returns ArrangedWorlds (env.arrange target) :=
  (arranging_arranged env).arrange target

def WMClient.bearing (c : WMClient) : Option MonitorKey × BitVec 32 × Bool × Bool × MaximizeAxes :=
  (c.mon, c.state.tags, c.state.isDock, c.state.isSwallowed, c.state.maximizedAxes)

/-- What a mode change leaves alone: owners, tags, views and the lists that exist. -/
structure Steady (s r : WMState) : Prop where
  clients : ∀ k, (r.clients.get? k).map WMClient.bearing = (s.clients.get? k).map WMClient.bearing
  monitors : ∀ m, (r.monitors.get? m).map WMMonitor.outlook = (s.monitors.get? m).map WMMonitor.outlook
  lists : ∀ m, (r.monitorClients.get? m).isSome = (s.monitorClients.get? m).isSome
  focusStacks : r.monitorStack = s.monitorStack

theorem Steady.refl (s : WMState) : Steady s s := ⟨fun _ => rfl, fun _ => rfl, fun _ => rfl, rfl⟩

theorem Steady.trans {c : WMState} (h : Steady a b) (h' : Steady b c) : Steady a c where
  clients k := (h'.clients k).trans (h.clients k)
  monitors m := (h'.monitors m).trans (h.monitors m)
  lists m := (h'.lists m).trans (h.lists m)
  focusStacks := h'.focusStacks.trans h.focusStacks

theorem Arranged.steady {s : WMState} (h : Arranged s r) : Steady s r where
  clients k := by
    have hb : WMClient.bearing = (fun p : Option MonitorKey × ClientState =>
        (p.1, p.2.tags, p.2.isDock, p.2.isSwallowed, p.2.maximizedAxes)) ∘ WMClient.standing := rfl
    rw [hb, ← Option.map_map, ← Option.map_map, h.clients k]
  monitors := h.monitors
  lists m := by rw [h.lists]
  focusStacks := h.focusStacks

theorem steady_setList (s : WMState) (mon : MonitorKey) (list : List ClientKey) : Steady s (s.setList mon list) where
  clients _ := rfl
  monitors _ := rfl
  lists m := by
    rw [setList_get?]
    split
    · exact isSome_map
    · rfl
  focusStacks := rfl

theorem steady_reorder (s : WMState) (key : ClientKey) : Steady s (reorderClientInMonitorGroups s key) := by
  unfold reorderClientInMonitorGroups
  cases s.clients.get? key with
  | none => exact .refl s
  | some c =>
    dsimp only
    cases c.mon with
    | none => exact .refl s
    | some mon =>
      dsimp only
      cases s.monitorClients.get? mon with
      | none => exact .refl s
      | some list =>
        dsimp only
        cases list.idxOf? key with
        | none => exact .refl s
        | some pos =>
          dsimp only
          split
          · exact steady_setList s mon _
          · exact steady_setList s mon _

/-- Steadiness of the worlds a computation goes through. -/
abbrev SteadyWorlds (w w' : ModeWorld) : Prop := Steady w.state w'.state

theorem lenient_steady (key : ClientKey) : Lenient SteadyWorlds key where
  refl w := .refl w.state
  trans h h' := h.trans h'
  ask w := .refl w.state
  resize w f hf := ((lenient_arranged key).resize w f hf).steady

theorem steady_modifyClient (key : ClientKey) (h : ∀ c, (f c).bearing = c.bearing) :
    Always SteadyWorlds (modifyClient key f) := fun w =>
  ensures_modify ⟨fun k => map_modifyClient w.state key k h, fun _ => rfl, fun _ => rfl, rfl⟩

theorem steady_regroup (key : ClientKey) : Always SteadyWorlds (modifyState (reorderClientInMonitorGroups · key)) :=
  always_modify fun w => steady_reorder w.state key

theorem steady_arrange (target : Option MonitorKey) : Always SteadyWorlds (env.arrange target) := fun w =>
  (returns_arrange env target w).mono (fun _ _ h => h.steady) fun _ h => h.elim

theorem Lasting.rollingBack {R : ModeWorld → ModeWorld → Prop} (hR : Lasting R)
    (hu : Always R undo) (hx : Always R x) : Always R (Jwm.rollingBack undo x) :=
  hR.bind (always_attempt hx) fun a => by
    cases a with
    | ok a => exact hR.pure a
    | error e => exact hR.bind hu fun _ => hR.throw e

theorem steady_coverMonitor (key : ClientKey) (monitor : Option WMMonitor) (hidden : Bool) (desktopLeft : Int) :
    Always SteadyWorlds (env.coverMonitor key monitor hidden desktopLeft) := by
  have hR := lenient_steady key
  cases monitor with
  | none => exact hR.pure ()
  | some m =>
    exact always_ite (hR.bind (hR.always_modifyClient fun _ => rfl) fun _ => hR.always_call env)
      (hR.always_resizeclient env _)

theorem steady_enterFullscreen (key : ClientKey) : Always SteadyWorlds (env.enterFullscreen key) :=
  have hR := lenient_steady key
  hR.bind (hR.always_call env) fun _ => hR.bind (hR.always_getClient key) fun _ =>
    hR.bind hR.always_getState fun _ => hR.bind (steady_modifyClient key fun _ => rfl) fun _ =>
      hR.bind (steady_regroup key) fun _ => hR.bind (steady_coverMonitor env key _ _ _) fun _ =>
        always_ite (hR.always_call env) (hR.pure ())

theorem steady_leaveFullscreen (key : ClientKey) : Always SteadyWorlds (env.leaveFullscreen key) :=
  have hR := lenient_steady key
  hR.bind (hR.always_call env) fun _ => hR.bind hR.always_getState fun _ =>
    hR.bind (steady_modifyClient key fun _ => rfl) fun _ => hR.bind (steady_regroup key) fun _ =>
      hR.bind (hR.always_getClient key) fun c =>
        hR.bind (always_ite (hR.always_call env) (hR.always_resizeclient env _)) fun _ =>
          always_ite (steady_arrange env c.mon) (hR.pure ())

theorem steady_setfullscreenOff (key : ClientKey) : Always SteadyWorlds (env.setfullscreenOff key) :=
  have hR := lenient_steady key
  hR.bind (hR.always_getClient key) fun _ => always_ite (steady_leaveFullscreen env key) (hR.pure ())

theorem steady_configurePip (key : ClientKey) (previous : WMClient) (target : Rect) :
    Always SteadyWorlds (env.configurePip key previous target) :=
  have hR := lenient_steady key
  always_ite (hR.bind hR.always_getState fun _ => hR.bind (hR.always_call env) fun _ =>
    hR.always_modifyClient fun _ => rfl) (hR.always_resizeclient env target)

/-! ## A failed transition -/

/-- The client `key` is `c` again, in its place of its monitor's list. -/
structure Intact (key : ClientKey) (c : WMClient) (s r : WMState) : Prop where
  steady : Steady s r
  client : r.clients.get? key = some c
  list : ∀ mon, c.mon = some mon → r.monitorClients.get? mon = s.monitorClients.get? mon

variable {w : ModeWorld} {E : ModeWorld → Prop}

theorem ensures_rollingBack {Q : α → ModeWorld → Prop}
    {F : ModeWorld → Prop} (hx : Ensures x w Q F) (hu : ∀ w', F w' → Ensures undo w' (fun _ => E) E) :
    Ensures (rollingBack undo x) w Q E := by
  refine ensures_bind (ensures_attempt (hx.mono (fun a w' h => ?_) fun w' h e => ?_))
  · exact h
  · exact (hu w' h).bind (fun _ _ h => ensures_throw h) fun _ h => h

theorem ensures_getState {Q : WMState → ModeWorld → Prop} (h : Q w.state w) : Ensures getState w Q E := h

variable {c : WMClient}

theorem ensures_getClient {key : ClientKey} {Q : WMClient → ModeWorld → Prop}
    (hc : w.state.clients.get? key = some c) (h : Q c w) : Ensures (getClient key) w Q E := by
  refine ensures_bind (ensures_getState ?_)
  rw [hc]
  exact h

theorem ensures_modifyState {f : WMState → WMState} {Q : Unit → ModeWorld → Prop}
    (h : Q () { w with state := f w.state }) : Ensures (modifyState f) w Q E := h

/-- A client that was `c` is made `c` again. -/
theorem steady_reinstall {s : WMState} {key : ClientKey} (hc : s.clients.get? key = some c)
    (hs : Steady s r) : Steady s (r.modifyClient key fun _ => c) ∧
      (r.modifyClient key fun _ => c).clients.get? key = some c := by
  have hk := hs.clients key
  rw [hc] at hk
  obtain ⟨c', hc', hb⟩ := map_eq_some_iff.1 hk
  have hget : ∀ k, (r.modifyClient key fun _ => c).clients.get? k = if k = key then some c else r.clients.get? k :=
    fun k => modifyClient_get?_of hc' (fun _ => c) k
  refine ⟨⟨fun k => ?_, hs.monitors, hs.lists, hs.focusStacks⟩, ?_⟩
  · rw [hget]
    split
    · rename_i hk
      rw [hk, hc]
    · exact hs.clients k
  · rw [hget, if_pos rfl]

theorem togglePip_intact {key : ClientKey} (hc : w.state.clients.get? key = some c)
    (pip : Bool) : Ensures (env.togglePip key pip) w (fun _ w' => Steady w.state w'.state)
      (fun w' => Intact key c w.state w'.state) := by
  have hR := lenient_arranged key
  -- until the regrouping the lists stay, so reinstalling the client is enough
  let J : ModeWorld → Prop := fun w' => Steady w.state w'.state ∧ w'.state.monitorClients = w.state.monitorClients
  have hJ : ∀ {α : Type} {x : Modes α}, Always ArrangedWorlds x → ∀ w', J w' →
      Ensures x w' (fun _ => J) J := fun hx w' h =>
    (hx w').mono (fun _ _ ha => ⟨h.1.trans ha.steady, ha.lists.trans h.2⟩) fun _ ha =>
      ⟨h.1.trans ha.steady, ha.lists.trans h.2⟩
  have hundo : ∀ w', J w' → Ensures (modifyClient key fun _ => c) w' (fun _ w' => Intact key c w.state w'.state)
      (fun w' => Intact key c w.state w'.state) := fun w' h =>
    have hr := steady_reinstall hc h.1
    ⟨hr.1, hr.2, fun mon _ => congrArg (·.get? mon) h.2⟩
  have hconf : ∀ target, Always ArrangedWorlds (env.configurePip key c target) := fun target =>
    always_ite (hR.bind hR.always_getState fun _ => hR.bind (hR.always_call env) fun _ =>
      hR.always_modifyClient fun _ => rfl) (hR.always_resizeclient env target)
  refine ensures_bind (ensures_getClient hc (ensures_bind (ensures_getState ?_)))
  cases env.pipTarget w.state c pip with
  | error e => exact ensures_throw ⟨.refl _, hc, fun _ _ => rfl⟩
  | ok target =>
    refine ensures_bind (ensures_modifyState ?_)
    have h₁ : J { w with state := w.state.modifyClient key fun c => if pip then c.enterPip else c.leavePip } :=
      ⟨steady_modifyClient key (fun c => by cases pip <;> rfl) w, rfl⟩
    refine (ensures_rollingBack (hJ (hR.always_applysizehints env target) _ h₁) hundo).bind (fun target w₂ h₂ => ?_)
      fun _ h => h
    refine (ensures_rollingBack (hJ (hR.always_call env) w₂ h₂) hundo).bind (fun _ w₃ h₃ => ?_) fun _ h => h
    refine (ensures_rollingBack (hJ (hconf target) w₃ h₃) hundo).bind (fun _ w₄ h₄ => ?_) fun _ h => h
    refine ensures_bind (ensures_modifyState ?_)
    have h₅ := h₄.1.trans (steady_reorder w₄.state key)
    exact (returns_arrange env c.mon _).mono (fun _ _ h => h₅.trans h.steady) fun _ h => h.elim

theorem steady_togglePip (key : ClientKey) (pip : Bool) : Always SteadyWorlds (env.togglePip key pip) := fun w => by
  cases hc : w.state.clients.get? key with
  | some c => exact (togglePip_intact env hc pip).mono (fun _ _ h => h) fun _ h => h.steady
  | none =>
    refine ensures_bind (ensures_bind (ensures_getState ?_))
    rw [hc]
    exact Steady.refl w.state

theorem steady_finishPip (key : ClientKey) : Always SteadyWorlds (env.finishPip key) :=
  have hR := lenient_steady key
  hR.bind (steady_setfullscreenOff env key) fun _ => hR.bind (hR.always_getClient key) fun _ =>
    always_ite (steady_togglePip env key false) (hR.pure ())

theorem steady_setfullscreenInner (key : ClientKey) (fullscreen : Bool) :
    Always SteadyWorlds (env.setfullscreenInner key fullscreen) :=
  have hR := lenient_steady key
  hR.bind (hR.always_getClient key) fun _ => hR.bind (always_ite (steady_finishPip env key) (hR.pure ())) fun _ =>
    always_ite (steady_enterFullscreen env key) (always_ite (steady_leaveFullscreen env key) (hR.pure ()))

theorem steady_setClientPipInner (key : ClientKey) (pip : Bool) : Always SteadyWorlds (env.setClientPipInner key pip) :=
  have hR := lenient_steady key
  hR.bind (hR.always_getClient key) fun _ => hR.bind (always_ite (steady_setfullscreenOff env key) (hR.pure ())) fun _ =>
    hR.bind (hR.always_getClient key) fun _ => always_ite (hR.pure false)
      (hR.bind (steady_togglePip env key pip) fun _ => hR.pure true)

section

variable {s : WMState} {key : ClientKey} (hc : s.clients.get? key = some c) (hs : Steady s w.state)
include hc hs

/-- Reinstalling the snapshot undoes whatever happened to the client and to its monitor's list. -/
theorem ensures_installSnapshot : Ensures (ModeEnv.installSnapshot key c (c.mon.bind s.monitorClients.get?)) w
      (fun _ w' => Intact key c s w'.state) E := by
  obtain ⟨h₁, h₂⟩ := steady_reinstall hc hs
  refine ensures_bind (ensures_modifyState ?_)
  cases hm : c.mon with
  | none => exact ⟨h₁, h₂, fun mon h => by cases hm.symm.trans h⟩
  | some mon =>
    have hlist := h₁.lists mon
    rw [bind_some]
    cases hl : s.monitorClients.get? mon with
    | none =>
      refine ⟨h₁, h₂, fun mon' h => ?_⟩
      cases hm.symm.trans h
      rw [hl] at hlist ⊢
      exact isNone_iff_eq_none.1 (by rw [← not_isSome, hlist]; rfl)
    | some list =>
      refine ensures_modifyState ⟨h₁.trans (steady_setList _ mon list), h₂, fun mon' h => ?_⟩
      cases hm.symm.trans h
      rw [hl] at hlist
      obtain ⟨l, hl'⟩ := isSome_iff_exists.1 hlist
      rw [setList_get?, if_pos rfl, hl', hl]
      rfl

theorem ensures_restoreFailedModeTransition :
    Ensures (env.restoreFailedModeTransition key c (c.mon.bind s.monitorClients.get?)) w
      (fun _ w' => Intact key c s w'.state) E :=
  (ensures_installSnapshot hc hs).bind (fun _ w₁ h₁ =>
    (returns_arrange env c.mon w₁).bind
      (fun _ _ h₂ => ensures_installSnapshot hc (h₁.steady.trans h₂.steady)) fun _ h => h.elim) fun _ h => h

end

/-- A fullscreen request that fails leaves the client and its place in the list as they were. -/
theorem setfullscreen_intact {key : ClientKey} (hc : w.state.clients.get? key = some c)
    (fullscreen : Bool) : Ensures (env.setfullscreen key fullscreen) w (fun _ w' => Steady w.state w'.state)
      (fun w' => Intact key c w.state w'.state) := by
  refine ensures_bind (ensures_getClient hc (ensures_bind (ensures_getState ?_)))
  exact ensures_rollingBack (steady_setfullscreenInner env key fullscreen w) fun w' h =>
    ensures_restoreFailedModeTransition env hc h

theorem setClientPip_intact {key : ClientKey} (hc : w.state.clients.get? key = some c)
    (pip : Bool) : Ensures (env.setClientPip key pip) w (fun _ w' => Steady w.state w'.state)
      (fun w' => Intact key c w.state w'.state) := by
  refine ensures_bind (ensures_getClient hc (ensures_bind (ensures_getState ?_)))
  cases hx : pip && c.state.isFullscreen with
  | true =>
    simp only [↓reduceIte]
    exact ensures_rollingBack (steady_setClientPipInner env key pip w) fun w' h =>
      ensures_restoreFailedModeTransition env hc h
  | false =>
    simp only [Bool.false_eq_true, ↓reduceIte]
    refine ensures_rollingBack (F := fun w' => Intact key c w.state w'.state) ?_ fun w' h => ensures_pure h
    refine ensures_bind (ensures_getClient hc ?_)
    rw [hx, if_neg Bool.false_ne_true]
    refine ensures_bind (ensures_pure (ensures_bind (ensures_getClient hc ?_)))
    refine ensures_ite (fun _ => ensures_pure (.refl w.state)) fun _ => ?_
    exact (togglePip_intact env hc pip).bind (fun _ _ h => ensures_pure h) fun _ h => h

end Jwm
