/-
Focus, selection and highlight agree after every command of every run, from a desk on which nothing has the focus.
-/
import Jwm.Wm.FocusAgreement

namespace Jwm

open List Option WMState

/-! ## Tags -/

section Tags

variable {α : Type} {F : WMClient → α} {s : WMState}

theorem foldl_modifyClient {f : WMClient → WMClient} (hF : ∀ c, F (f c) = F c) (k : ClientKey) :
    ∀ (keys : List ClientKey) (s : WMState),
      (keys.foldl (fun s key => s.modifyClient key f) s) =
        { s with clients := (keys.foldl (fun s key => s.modifyClient key f) s).clients } ∧
      ((keys.foldl (fun s key => s.modifyClient key f) s).clients.get? k).map F = (s.clients.get? k).map F
  | [], _ => ⟨rfl, rfl⟩
  | key :: keys, s => by
    obtain ⟨hframe, hmap⟩ := foldl_modifyClient hF k keys (s.modifyClient key f)
    refine ⟨hframe, hmap.trans ?_⟩
    rw [modifyClient_get?]
    split
    · cases s.clients.get? k with
      | none => rfl
      | some c => exact congrArg some (hF c)
    · rfl

theorem updateStickyTags_spec
    (hF : ∀ (c : WMClient) tags, c.state.isSticky = true → F { c with state := { c.state with tags := tags } } = F c)
    (s : WMState) (m : MonitorKey) (k : ClientKey) :
    updateStickyTags s m = { s with clients := (updateStickyTags s m).clients } ∧
      ((updateStickyTags s m).clients.get? k).map F = (s.clients.get? k).map F := by
  unfold updateStickyTags
  split
  · exact ⟨rfl, rfl⟩
  · rename_i monitor _
    refine foldl_modifyClient (fun c => ?_) k _ s
    split
    · exact hF c _ ‹_›
    · rfl

theorem bind_eq_map {o : Option WMClient} : o.bind (·.mon) = (o.map (·.mon)).join := by
  cases o <;> rfl

end Tags

section Commands

variable {ctx : DeskContext} {r : DeskReading} {d : Desk}

/-- A monitor views other tags, and its sticky clients follow. -/
def Desk.afterView (d : Desk) (mon : MonitorKey) (mask : BitVec 32) (toggle : Bool) : Desk :=
  let wm := { d.wm with monitors := d.wm.monitors.modify mon fun m => (m.viewTag mask toggle).1 }
  { d with wm := updateStickyTags wm mon }

theorem updateStickyTags_frame (s : WMState) (m : MonitorKey) :
    updateStickyTags s m = { s with clients := (updateStickyTags s m).clients } :=
  (updateStickyTags_spec (F := fun _ => ()) (fun _ _ _ => rfl) s m ⟨0, 0⟩).1

theorem afterView_frame (d : Desk) (mon : MonitorKey) (mask : BitVec 32) (toggle : Bool) :
    (d.afterView mon mask toggle).wm = { d.wm with
      monitors := d.wm.monitors.modify mon fun m => (m.viewTag mask toggle).1
      clients := (d.afterView mon mask toggle).wm.clients } :=
  updateStickyTags_frame _ mon

theorem afterView_map {α : Type} {F : WMClient → α}
    (hF : ∀ (c : WMClient) tags, c.state.isSticky = true → F { c with state := { c.state with tags := tags } } = F c)
    (d : Desk) (mon : MonitorKey) (mask : BitVec 32) (toggle : Bool) (k : ClientKey) :
    ((d.afterView mon mask toggle).wm.clients.get? k).map F = (d.wm.clients.get? k).map F :=
  (updateStickyTags_spec hF _ mon k).2

theorem afterView_monOf (d : Desk) (mon : MonitorKey) (mask : BitVec 32) (toggle : Bool) (k : ClientKey) :
    (d.afterView mon mask toggle).wm.monOf k = d.wm.monOf k := by
  rw [monOf, monOf, bind_eq_map, bind_eq_map, afterView_map fun _ _ _ => rfl]

theorem afterView_ready (h : FocusReady ctx.locked d.wm) (mon : MonitorKey) (mask : BitVec 32) (toggle : Bool) :
    FocusReady ctx.locked (d.afterView mon mask toggle).wm := by
  have hview := h.modifyMonitor mon (f := fun m => (m.viewTag mask toggle).1) fun m hm => hasSlot_viewTag hm mask toggle
  have hmon := afterView_monOf d mon mask toggle
  rw [afterView_frame] at hmon ⊢
  exact hview.of_clients hmon

open Desk

theorem afterView_selected (d : Desk) (mon : MonitorKey) (mask : BitVec 32) (toggle : Bool) :
    (d.afterView mon mask toggle).selected = d.selected := by
  unfold selected
  rw [afterView_frame]
  cases d.wm.selMon with
  | none => rfl
  | some m =>
    rw [bind_some, bind_some, KeyMap.get?_modify]
    split
    · cases d.wm.monitors.get? m with
      | none => rfl
      | some monitor => exact viewTag_sel monitor mask toggle
    · rfl

theorem afterView_plain (h : d.Plain) (mon : MonitorKey) (mask : BitVec 32) (toggle : Bool) :
    (d.afterView mon mask toggle).Plain := by
  intro k hk
  obtain ⟨hsel, halive⟩ := h k hk
  refine ⟨(afterView_selected d mon mask toggle).trans hsel, ?_⟩
  have hmap := afterView_map (F := fun _ => ()) (fun _ _ _ => rfl) d mon mask toggle k
  unfold isAlive at halive ⊢
  rw [← isSome_map (f := fun _ => ()), hmap, isSome_map]
  exact halive

theorem Chosen.afterView {k : ClientKey} {m : MonitorKey} {monitor : WMMonitor} (h : Chosen d.wm k m monitor)
    {mon : MonitorKey} (hne : m ≠ mon) (mask : BitVec 32) (toggle : Bool) :
    Chosen (d.afterView mon mask toggle).wm k m monitor := by
  have hmonitor : (d.afterView mon mask toggle).wm.monitors.get? m = some monitor := by
    rw [afterView_frame]
    exact (KeyMap.get?_modify ..).trans ((if_neg hne).trans h.monitor)
  refine ⟨(congrArg _ (afterView_frame ..)).trans h.selMon, hmonitor, h.sel, ?_, ?_, (afterView_monOf ..).trans h.owned, h.recorded, ?_⟩
  · obtain ⟨c, hc, he⟩ := (Option.any_eq_true ..).1 h.eligible
    have hmap := afterView_map (F := fun c => !c.state.isDock && !c.state.isDesktop) (fun _ _ _ => rfl) d mon mask toggle k
    rw [hc, map_some] at hmap
    obtain ⟨c', hc', he'⟩ := map_eq_some_iff.1 hmap
    exact (Option.any_eq_true ..).2 ⟨c', hc', he'.trans he⟩
  · obtain ⟨c, mon', hc, hmon', hshows⟩ := visible_iff.1 h.visible
    obtain rfl := some.inj (hmon'.symm.trans h.monitor)
    have hmap := afterView_map (F := fun c => c.shows mon'.activeTags) (fun c tags hs => by
      unfold WMClient.shows
      simp only [hs, Bool.true_or]) d mon mask toggle k
    rw [hc, map_some] at hmap
    obtain ⟨c', hc', hshows'⟩ := map_eq_some_iff.1 hmap
    exact visible_iff.2 ⟨c', mon', hc', hmonitor, hshows'.trans hshows⟩
  · rw [afterView_frame]
    exact h.head

section

variable (h : Agrees ctx d)
include h

theorem viewOnMonitor_agrees (mon : MonitorKey) (ui : BitVec 32) : Agrees ctx (d.viewOnMonitor ctx r mon ui).1 := by
  unfold viewOnMonitor
  dsimp only
  split
  · exact h
  split
  · exact h
  show Agrees ctx (if (d.afterView mon (ui &&& r.tagmask) false).wm.selMon = some mon then
    (d.afterView mon (ui &&& r.tagmask) false).focus ctx r _ else (d.afterView mon (ui &&& r.tagmask) false, .ok ())).1
  split
  · exact (focus_agrees (afterView_ready h.ready mon _ false) (afterView_plain h.plain mon _ false) _).1
  · rename_i hne
    rw [afterView_frame] at hne
    refine ⟨afterView_ready h.ready mon _ false, ?_, fun k hk => ?_, fun k => ?_⟩
    · rw [afterView_selected]
      exact h.focused
    · rw [afterView_selected] at hk
      obtain ⟨m, monitor, hc⟩ := h.chosen k hk
      exact ⟨m, monitor, hc.afterView (fun e : m = mon => hne (hc.selMon.trans (congrArg some e))) _ false⟩
    · rw [afterView_selected]
      exact h.highlight k

theorem view_agrees (arg : Option (BitVec 32)) : Agrees ctx (d.view ctx r arg).1 := by
  unfold Desk.view
  split
  · exact viewOnMonitor_agrees h _ _
  · exact h

theorem toggleview_agrees (arg : Option (BitVec 32)) : Agrees ctx (d.toggleview ctx r arg).1 := by
  unfold toggleview
  split
  · exact h
  dsimp only
  split
  · exact h
  split
  · exact h
  · rename_i mon _
    exact (focus_agrees (afterView_ready h.ready mon _ true) (afterView_plain h.plain mon _ true) _).1

theorem setTags_agrees (key : ClientKey) (tags : BitVec 32) :
    Agrees ctx ((d.setTags key tags).focus ctx r none).1 := by
  refine (focus_agrees ?_ ?_ none).1
  · refine h.ready.of_clients fun k => ?_
    refine (monOf_modifyClient d.wm key k _).trans ?_
    unfold monOf
    split
    · cases d.wm.clients.get? k <;> rfl
    · rfl
  · intro k hk
    obtain ⟨hsel, halive⟩ := h.plain k hk
    refine ⟨hsel, ?_⟩
    exact (present_modifyClient d.wm key k _).trans halive

theorem toggletag_agrees (arg : Option (BitVec 32)) : Agrees ctx (d.toggletag ctx r arg).1 := by
  unfold toggletag
  split
  · split
    · exact h
    dsimp only
    split
    · exact h
    split
    · exact h
    · exact setTags_agrees h _ _
  · exact h

theorem moveClientToTag_agrees (key : ClientKey) (targetTag : BitVec 32) :
    Agrees ctx (d.moveClientToTag ctx r key targetTag).1 := by
  unfold moveClientToTag
  dsimp only
  split
  · exact h
  split
  · exact h
  · exact setTags_agrees h _ _

end

end Commands

/-! ## Another monitor -/

section Transfer

variable {ctx : DeskContext} {r : DeskReading} {d : Desk} {key : ClientKey} {client : WMClient} {target : MonitorKey}
  {targetMonitor : WMMonitor}

theorem detach_monOf (s : WMState) (key k : ClientKey) : (detach s key).monOf k = s.monOf k := by
  rw [monOf, monOf, bind_eq_map, bind_eq_map, detach_map fun _ _ => rfl]

def WMMonitor.forget (m : WMMonitor) (key : ClientKey) (next : Option ClientKey) : WMMonitor :=
  (m.reselect key next).clearSelectionOf key

theorem hasSlot_forget {m : WMMonitor} (h : m.HasSlot) (key : ClientKey) (next : Option ClientKey) :
    (m.forget key next).HasSlot :=
  hasSlot_clearSelectionOf (hasSlot_reselect h key next) key

theorem forget_sel {m : WMMonitor} {k : ClientKey} (h : m.sel = some k) (hne : k ≠ key) (next : Option ClientKey) :
    (m.forget key next).sel = some k := by
  have hother : m.sel ≠ some key := fun e => hne (some.inj (h.symm.trans e))
  unfold WMMonitor.forget WMMonitor.reselect WMMonitor.clearSelectionOf
  rw [if_neg hother]
  rw [if_neg hother]
  exact h

/-- The client has left its old stack and monitor, and tops the stack of the other. -/
structure Transferred (s s' : WMState) (key : ClientKey) (target : MonitorKey) : Prop where
  present : ∀ k, (s'.clients.get? k).isSome = (s.clients.get? k).isSome
  mon : ∀ k, s'.monOf k = if k = key then some target else s.monOf k
  focusStacks : ∀ m, s'.monitorStack.get? m =
    (s.monitorStack.get? m).map fun l => if m = target then key :: l.erase key else l.erase key
  monitors : ∀ m, ∃ f : WMMonitor → WMMonitor, s'.monitors.get? m = (s.monitors.get? m).map f ∧
    (∀ mon, mon.HasSlot → (f mon).HasSlot) ∧ ∀ mon k, mon.sel = some k → k ≠ key → (f mon).sel = some k
  selMon : s'.selMon = s.selMon

variable {locked : MonitorKey → Bool}

theorem Transferred.ready {s s' : WMState} (ht : Transferred s s' key target)
    (h : FocusReady locked s) : FocusReady locked s' where
  focusStacks m l hl := by
    rw [ht.focusStacks m] at hl
    obtain ⟨l0, hl0, rfl⟩ := map_eq_some_iff.1 hl
    obtain ⟨hn, hmem⟩ := h.focusStacks m l0 hl0
    have herase : ∀ k, k ∈ l0.erase key ↔ k ≠ key ∧ s.monOf k = some m := fun k => by
      rw [hn.mem_erase_iff, hmem k]
    split
    · rename_i e
      subst e
      refine ⟨nodup_cons.2 ⟨hn.not_mem_erase, hn.erase key⟩, fun k => ?_⟩
      rw [mem_cons, herase, ht.mon k]
      split
      · rename_i e
        exact iff_of_true (.inl e) rfl
      · rename_i hne
        simp [hne]
    · rename_i hm
      refine ⟨hn.erase key, fun k => ?_⟩
      rw [herase, ht.mon k]
      split
      · rename_i e
        exact iff_of_false (fun hk => hk.1 e) fun e => hm (some.inj e).symm
      · rename_i hne
        simp [hne]
  kept m mon hmon := by
    obtain ⟨f, hf, -, -⟩ := ht.monitors m
    rw [hf] at hmon
    obtain ⟨mon0, h0, -⟩ := map_eq_some_iff.1 hmon
    obtain ⟨l, hl⟩ := h.kept m mon0 h0
    rw [ht.focusStacks m, hl]
    exact ⟨_, rfl⟩
  slots m mon hmon := by
    obtain ⟨f, hf, hslot, -⟩ := ht.monitors m
    rw [hf] at hmon
    obtain ⟨mon0, h0, rfl⟩ := map_eq_some_iff.1 hmon
    exact hslot mon0 (h.slots m mon0 h0)
  selLive m hsel := by
    rw [ht.selMon] at hsel
    obtain ⟨⟨mon, hmon⟩, hl⟩ := h.selLive m hsel
    obtain ⟨f, hf, -, -⟩ := ht.monitors m
    exact ⟨⟨f mon, by rw [hf, hmon]; rfl⟩, hl⟩

theorem Transferred.selected {s s' : WMState} (ht : Transferred s s' key target) {k : ClientKey}
    (h : (s.selMon.bind s.monitors.get?).bind (·.sel) = some k) (hne : k ≠ key) :
    (s'.selMon.bind s'.monitors.get?).bind (·.sel) = some k := by
  rw [ht.selMon]
  obtain ⟨mon, hmon, hsel⟩ := bind_eq_some_iff.1 h
  obtain ⟨m, hm, hget⟩ := bind_eq_some_iff.1 hmon
  obtain ⟨f, hf, -, hkeep⟩ := ht.monitors m
  rw [hm, bind_some, hf, hget]
  exact hkeep mon k hsel hne

/-- A client that is in no list or stack any more. -/
structure Departed (s s' : WMState) (key : ClientKey) : Prop where
  present : ∀ k, (s'.clients.get? k).isSome = (s.clients.get? k).isSome
  mon : ∀ k, s'.monOf k = s.monOf k
  focusStacks : ∀ m, s'.monitorStack.get? m = (s.monitorStack.get? m).map (·.erase key)
  monitors : ∀ m, ∃ f : WMMonitor → WMMonitor, s'.monitors.get? m = (s.monitors.get? m).map f ∧
    (∀ mon, mon.HasSlot → (f mon).HasSlot) ∧ ∀ mon k, mon.sel = some k → k ≠ key → (f mon).sel = some k
  selMon : s'.selMon = s.selMon

section

variable {s : WMState} (h : FocusReady locked s)
include h

theorem erase_absent {m : MonitorKey} (hk : s.monOf key ≠ some m) : s.monitorStack.get? m = (s.monitorStack.get? m).map (·.erase key) := by
  cases hl : s.monitorStack.get? m with
  | none => rfl
  | some l =>
    have hmem : key ∉ l := fun hin => hk (((h.focusStacks m l hl).2 key).1 hin)
    rw [map_some, erase_of_not_mem hmem]

theorem departed_orphan (hk : s.monOf key = none) : Departed s (detachstack (detach s key) key) key := by
  have hd : detach s key = s := by simp only [detach, hk]
  have hs : detachstack s key = s := by simp only [detachstack, hk]
  rw [hd, hs]
  refine ⟨fun _ => rfl, fun _ => rfl, fun m => erase_absent h (by rw [hk]; exact (some_ne_none m).symm), fun m => ?_, rfl⟩
  exact ⟨id, map_id'.symm, fun _ h => h, fun _ _ h _ => h⟩

theorem departed_from {source : MonitorKey} (hk : s.monOf key = some source) :
    Departed s { detachstack (detach s key) key with
      monitors := (detachstack (detach s key) key).monitors.modify source (·.clearSelectionOf key) } key := by
  have hk' : (detach s key).monOf key = some source := (detach_monOf s key key).trans hk
  have hframe := detach_frame s key
  have hpresent := detach_present s key
  have hmon := detach_monOf s key
  generalize detach s key = s0 at hk' hframe hpresent hmon ⊢
  rw [detachstack_eq hk']
  generalize nextSelected s0 key source = next
  refine ⟨hpresent, hmon, fun m => ?_, fun m => ?_, by rw [hframe]⟩
  · rw [KeyMap.get?_modify, hframe]
    split
    · rfl
    · rename_i hne
      exact erase_absent h fun e => hne (some.inj (e.symm.trans hk))
  · rw [KeyMap.get?_modify, KeyMap.get?_modify, hframe]
    split
    · refine ⟨(·.forget key next), Option.map_map .., fun mon hm => hasSlot_forget hm key next, ?_⟩
      exact fun mon k hsel hne => forget_sel hsel hne next
    · exact ⟨id, map_id'.symm, fun _ h => h, fun _ _ h _ => h⟩

end

theorem attach_eq {s : WMState} (hk : s.monOf key = some target) : attachstack (attachBack s key) key = { s with
      monitorClients := (attachBack s key).monitorClients
      monitorStack := s.monitorStack.modify target (key :: ·) } := by
  have hframe : attachBack s key = { s with monitorClients := (attachBack s key).monitorClients } := by
    unfold attachBack
    rw [reorder_frame]
    split <;> rfl
  have hmon : (attachBack s key).monOf key = some target := by
    rw [hframe]
    exact hk
  unfold attachstack
  rw [hmon]
  generalize attachBack s key = s1 at hframe
  rw [hframe]

theorem Departed.attach {s s' : WMState} (h : Departed s s' key) (hkey : (s.clients.get? key).isSome = true)
    {f : WMClient → WMClient} (hf : ∀ c, (f c).mon = some target) :
    Transferred s (attachstack (attachBack (s'.modifyClient key f) key) key) key target := by
  have hmon : ∀ k, (s'.modifyClient key f).monOf k = if k = key then some target else s.monOf k := by
    intro k
    rw [monOf_modifyClient]
    split
    · rename_i e
      obtain ⟨c, hc⟩ := isSome_iff_exists.1 ((h.present key).trans hkey)
      rw [e, hc]
      exact hf c
    · exact h.mon k
  rw [attach_eq ((hmon key).trans (if_pos rfl))]
  refine ⟨fun k => (present_modifyClient s' key k f).trans (h.present k), hmon, fun m => ?_, h.monitors, h.selMon⟩
  show (s'.monitorStack.modify target (key :: ·)).get? m = _
  rw [KeyMap.get?_modify, h.focusStacks m]
  cases s.monitorStack.get? m with
  | none | some l => split <;> rfl

theorem transfer_transferred (h : FocusReady locked d.wm) (hc : d.wm.clients.get? key = some client) :
    Transferred d.wm (d.transfer r key client target targetMonitor).wm key target := by
  have hkey : (d.wm.clients.get? key).isSome = true := by rw [hc]; rfl
  have hk : d.wm.monOf key = client.mon := by rw [monOf, hc]; rfl
  have hwm : (d.unfocusClient key true).wm = d.wm := by
    unfold Desk.unfocusClient
    split <;> rfl
  unfold Desk.transfer
  dsimp only
  rw [hwm]
  cases hm : client.mon with
  | none => exact (departed_orphan h (hk.trans hm)).attach hkey fun _ => rfl
  | some source => exact (departed_from h (hk.trans hm)).attach hkey fun _ => rfl

theorem transfer_plain (h : FocusReady locked d.wm) (hd : d.Plain)
    (hc : d.wm.clients.get? key = some client) : (d.transfer r key client target targetMonitor).Plain := by
  have ht := @transfer_transferred r d key client target targetMonitor _ h hc
  intro k hk
  have halive : d.isAlive key = true := by
    unfold Desk.isAlive
    rw [hc]
    rfl
  have hdec : (d.transfer r key client target targetMonitor).decorated = Function.update d.decorated key false := by
    unfold Desk.transfer Desk.unfocusClient
    rw [if_pos halive]
    rfl
  rw [hdec, Function.update_apply] at hk
  split at hk
  · cases hk
  · rename_i hne
    obtain ⟨hsel, hlive⟩ := hd k hk
    exact ⟨ht.selected hsel hne, (ht.present k).trans hlive⟩

end Transfer

theorem sendmon_agrees {ctx : DeskContext} {r : DeskReading} {d : Desk} (h : Agrees ctx d) (client : Option ClientKey)
    (target : Option MonitorKey) : Agrees ctx (d.sendmon ctx r client target) := by
  unfold Desk.sendmon
  split
  · split
    · split
      · exact h
      · rename_i hc _
        exact (focus_agrees ((transfer_transferred h.ready hc).ready h.ready) (transfer_plain h.ready h.plain hc) none).1
    · exact h
  · exact h

/-! ## Runs -/

/-- A desk with exact stacks on which nothing has the focus. -/
structure Desk.Fresh (ctx : DeskContext) (d : Desk) : Prop where
  ready : FocusReady ctx.locked d.wm
  unfocused : d.focused = none
  unselected : ∀ m mon, d.wm.monitors.get? m = some mon → mon.sel = none
  undecorated : ∀ k, d.decorated k = false

theorem Desk.Fresh.agrees {ctx : DeskContext} {d : Desk} (h : d.Fresh ctx) : Agrees ctx d := by
  have hsel : d.selected = none := by
    unfold selected
    cases hm : d.wm.selMon.bind d.wm.monitors.get? with
    | none => rfl
    | some mon =>
      obtain ⟨m, -, hget⟩ := bind_eq_some_iff.1 hm
      exact h.unselected m mon hget
  refine ⟨h.ready, by rw [hsel]; exact h.unfocused, fun k hk => ?_, fun k => ?_⟩
  · rw [hsel] at hk
    cases hk
  · rw [hsel, h.undecorated k]
    exact iff_of_false Bool.false_ne_true fun e => nomatch e

theorem call_agrees {ctx : DeskContext} {d : Desk} (h : Agrees ctx d) (c : DeskReading × DeskCall) :
    Agrees ctx (d.call ctx c).1 := by
  obtain ⟨r, call⟩ := c
  cases call with
  | focus client => exact (focus_agrees h.ready h.plain client).1
  | focusNone => exact focusNone_agrees h.ready h.plain
  | view arg => exact view_agrees h arg
  | viewOnMonitor monitor ui => exact viewOnMonitor_agrees h monitor ui
  | toggleview arg => exact toggleview_agrees h arg
  | toggletag arg => exact toggletag_agrees h arg
  | moveClientToTag client targetTag => exact moveClientToTag_agrees h client targetTag
  | sendmon client target => exact sendmon_agrees h client target

/-- Keyboard focus, selection and highlight agree after every call of every run, and a client that may have the focus
and shows gets it when it is asked for. -/
theorem focus_in_agreement (ctx : DeskContext) {d : Desk} (h : d.Fresh ctx) (calls : List (DeskReading × DeskCall)) :
    Agrees ctx (after (Desk.call ctx) d calls) ∧
      ∀ (r : DeskReading) (key : ClientKey),
        isApplicationFocusEligible (after (Desk.call ctx) d calls).wm key = true →
        isClientVisibleByKey (after (Desk.call ctx) d calls).wm key = true →
        (after (Desk.call ctx) d calls).clientIsOnLockedMonitor ctx key = false →
        ((after (Desk.call ctx) d calls).focus ctx r (some key)).1.selected = some key := by
  have hrun := after_invariant (I := Agrees ctx) (fun d c hd => call_agrees hd c) h.agrees calls
  refine ⟨hrun, fun r key he hv hl => ?_⟩
  rw [(focus_agrees hrun.ready hrun.plain (some key)).2, focusTarget_given he hv hl]

/-! ## A window on a monitor -/

namespace Sample

def output : MonitorKey := ⟨2, 1⟩

def outputMonitor : WMMonitor :=
  { WMMonitor.new with tagSet := fun _ => 1, pertag := some { Pertag.new true 9 with curTag := 1 } }

def desk : Desk where
  wm :=
    { clients := ⟨[(window, { waiting with mon := some output })], by decide⟩
      monitors := ⟨[(output, outputMonitor)], by decide⟩
      monitorClients := ⟨[(output, [window])], by decide⟩
      monitorStack := ⟨[(output, [window])], by decide⟩
      monitorOrder := [output]
      selMon := some output }
  urgent := fun _ => false
  demandsAttention := fun _ => false
  focused := none
  decorated := fun _ => false

def deskContext : DeskContext := ⟨fun _ => 7, fun _ => false⟩

def reading : DeskReading := ⟨0x1ff, true, fun _ => false, id⟩

theorem desk_monitor {m : MonitorKey} {mon : WMMonitor} (h : desk.wm.monitors.get? m = some mon) :
    m = output ∧ mon = outputMonitor := by
  have hmem : (m, mon) ∈ [(output, outputMonitor)] := KeyMap.get?_eq_some.1 h
  exact Prod.mk.inj (mem_singleton.1 hmem)

theorem desk_monOf {k : ClientKey} {m : MonitorKey} : desk.wm.monOf k = some m ↔ k = window ∧ m = output := by
  refine ⟨fun h => ?_, ?_⟩
  · obtain ⟨c, hc, hm⟩ := bind_eq_some_iff.1 h
    have hmem : (k, c) ∈ [(window, { waiting with mon := some output })] := KeyMap.get?_eq_some.1 hc
    obtain ⟨rfl, rfl⟩ := Prod.mk.inj (mem_singleton.1 hmem)
    exact ⟨rfl, (some.inj hm).symm⟩
  · rintro ⟨rfl, rfl⟩
    rfl

theorem desk_fresh : desk.Fresh deskContext where
  ready := by
    refine ⟨fun m l hl => ?_, fun m mon hm => ?_, fun m mon hm => ?_, fun m hm => ?_⟩
    · have hmem : (m, l) ∈ [(output, [window])] := KeyMap.get?_eq_some.1 hl
      obtain ⟨rfl, rfl⟩ := Prod.mk.inj (mem_singleton.1 hmem)
      refine ⟨nodup_singleton window, fun k => ?_⟩
      rw [mem_singleton, desk_monOf, and_iff_left rfl]
    · obtain ⟨rfl, -⟩ := desk_monitor hm
      exact ⟨[window], rfl⟩
    · obtain ⟨-, rfl⟩ := desk_monitor hm
      exact ⟨_, rfl, by decide⟩
    · exact ⟨⟨outputMonitor, some.inj hm ▸ rfl⟩, rfl⟩
  unfocused := rfl
  unselected m mon hm := by
    obtain ⟨-, rfl⟩ := desk_monitor hm
    rfl
  undecorated _ := rfl

/-- To another tag and back. -/
def deskCalls : List (DeskReading × DeskCall) :=
  [(reading, .focus (some window)), (reading, .view (some 2)), (reading, .view (some 1)), (reading, .focusNone)]

end Sample

theorem focus_in_agreement_sample :
    let d := after (Desk.call Sample.deskContext) Sample.desk Sample.deskCalls
    Agrees Sample.deskContext d ∧ (d.focus Sample.deskContext Sample.reading (some Sample.window)).1.selected = some Sample.window := by
  have h := focus_in_agreement Sample.deskContext Sample.desk_fresh Sample.deskCalls
  exact ⟨h.1, h.2 Sample.reading Sample.window rfl rfl rfl⟩

end Jwm
