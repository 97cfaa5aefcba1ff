/-
Focus, selection and highlight agree after every command: each leaves the stacks exact and the selected monitor live, and
`focus` makes the rest agree from there.
-/
import Jwm.Wm.FocusDesk
import Jwm.Wm.SessionPlacement

namespace Jwm

open List Option KeyMap Bool Function

/-! ## What focus needs -/

def WMMonitor.HasSlot (m : WMMonitor) : Prop := ∃ p, m.pertag = some p ∧ p.curTag < p.sel.length

structure FocusReady (locked : MonitorKey → Bool) (s : WMState) : Prop where
  focusStacks : ∀ m l, s.monitorStack.get? m = some l → l.Nodup ∧ ∀ k, k ∈ l ↔ s.monOf k = some m
  kept : ∀ m mon, s.monitors.get? m = some mon → ∃ l, s.monitorStack.get? m = some l
  slots : ∀ m mon, s.monitors.get? m = some mon → mon.HasSlot
  selLive : ∀ m, s.selMon = some m → (∃ mon, s.monitors.get? m = some mon) ∧ locked m = false

section Slots

variable {m : WMMonitor}

open WMMonitor

theorem hasSlot_setSelected (h : m.HasSlot) (client : Option ClientKey) :
    (m.setSelectedClientForCurrentTag client).HasSlot := by
  obtain ⟨p, hp, hlt⟩ := h
  unfold setSelectedClientForCurrentTag
  rw [hp]
  refine ⟨_, rfl, ?_⟩
  rw [length_set]
  exact hlt

theorem hasSlot_clearSelectionOf (h : m.HasSlot) (client : ClientKey) : (m.clearSelectionOf client).HasSlot := by
  obtain ⟨p, hp, hlt⟩ := h
  unfold clearSelectionOf
  rw [hp]
  refine ⟨_, rfl, ?_⟩
  rw [length_map]
  exact hlt

theorem hasSlot_reselect (h : m.HasSlot) (key : ClientKey) (next : Option ClientKey) : (m.reselect key next).HasSlot := by
  unfold reselect
  split
  · exact h
  · exact h

theorem hasSlot_viewTag (h : m.HasSlot) (mask : BitVec 32) (toggle : Bool) : (m.viewTag mask toggle).1.HasSlot := by
  obtain ⟨p, hp, hlt⟩ := h
  rcases viewTag_cases m mask toggle with ⟨-, e⟩ | ⟨-, e⟩
  · rw [e]
    exact ⟨p, hp, hlt⟩
  · have hp' : (m.switchTags (m.viewMask mask toggle)).pertag = some p := hp
    rw [e]
    unfold applyPertagContext
    simp only [hp']
    refine ⟨_, rfl, ?_⟩
    show p.clampTag _ < p.sel.length
    unfold Pertag.clampTag
    rw [if_neg (by omega)]
    omega

theorem viewTag_sel (m : WMMonitor) (mask : BitVec 32) (toggle : Bool) : (m.viewTag mask toggle).1.sel = m.sel := by
  rcases viewTag_cases m mask toggle with ⟨-, e⟩ | ⟨-, e⟩
  · rw [e]
  · rw [e]
    unfold applyPertagContext
    simp only
    split <;> rfl

theorem activeTags_reselect (m : WMMonitor) (key : ClientKey) (next : Option ClientKey) :
    (m.reselect key next).activeTags = m.activeTags := by
  unfold reselect
  split <;> rfl

theorem recorded_setSelected (h : m.HasSlot) (client : Option ClientKey) :
    ∃ p, (m.setSelectedClientForCurrentTag client).pertag = some p ∧ p.sel[p.curTag]? = some client := by
  obtain ⟨p, hp, hlt⟩ := h
  unfold setSelectedClientForCurrentTag
  rw [hp]
  refine ⟨_, rfl, ?_⟩
  have hclamp : p.clampTag p.curTag = p.curTag := by
    unfold Pertag.clampTag
    rw [if_neg (by omega)]
    omega
  show (p.sel.set (p.clampTag p.curTag) client)[p.curTag]? = some client
  rw [hclamp]
  exact getElem?_set_self hlt

end Slots

namespace FocusReady

variable {locked : MonitorKey → Bool} {s : WMState}

section

variable (h : FocusReady locked s)
include h

theorem of_clients {clients : KeyMap ClientKey WMClient}
    (hmon : ∀ k, ({ s with clients := clients } : WMState).monOf k = s.monOf k) :
    FocusReady locked { s with clients := clients } where
  focusStacks m l hl := by
    obtain ⟨hn, hk⟩ := h.focusStacks m l hl
    exact ⟨hn, fun k => by rw [hk k, hmon k]⟩
  kept := h.kept
  slots := h.slots
  selLive := h.selLive

theorem modifyMonitor (m : MonitorKey) {f : WMMonitor → WMMonitor} (hf : ∀ mon, mon.HasSlot → (f mon).HasSlot) :
    FocusReady locked { s with monitors := s.monitors.modify m f } := by
  have hget : ∀ m' mon, (s.monitors.modify m f).get? m' = some mon →
      ∃ mon0, s.monitors.get? m' = some mon0 ∧ (mon0.HasSlot → mon.HasSlot) := by
    intro m' mon hmon
    rw [get?_modify] at hmon
    split at hmon
    · obtain ⟨mon0, h0, rfl⟩ := map_eq_some_iff.1 hmon
      exact ⟨mon0, h0, hf mon0⟩
    · exact ⟨mon, hmon, id⟩
  refine ⟨h.focusStacks, fun m' mon hmon => ?_, fun m' mon hmon => ?_, fun m' hsel => ?_⟩
  · obtain ⟨mon0, h0, -⟩ := hget m' mon hmon
    exact h.kept m' mon0 h0
  · obtain ⟨mon0, h0, hslot⟩ := hget m' mon hmon
    exact hslot (h.slots m' mon0 h0)
  · obtain ⟨⟨mon, hmon⟩, hl⟩ := h.selLive m' hsel
    refine ⟨?_, hl⟩
    rw [get?_modify, hmon]
    split
    · exact ⟨_, rfl⟩
    · exact ⟨_, rfl⟩

theorem updateMonitorSelection (client : Option ClientKey) : FocusReady locked (updateMonitorSelection s client) := by
  unfold Jwm.updateMonitorSelection
  split
  · exact h
  · exact h.modifyMonitor _ fun mon hmon => hasSlot_setSelected hmon client

theorem select {m : MonitorKey} (hm : (∃ mon, s.monitors.get? m = some mon) ∧ locked m = false) :
    FocusReady locked { s with selMon := some m } where
  focusStacks := h.focusStacks
  kept := h.kept
  slots := h.slots
  selLive _ e := some.inj e ▸ hm

theorem raise {key : ClientKey} {m : MonitorKey} (hk : s.monOf key = some m) (next : Option ClientKey) :
    FocusReady locked { s with
      monitorStack := (s.monitorStack.modify m (·.erase key)).modify m (key :: ·)
      monitors := s.monitors.modify m (·.reselect key next) } := by
  have hr := h.modifyMonitor m (f := (·.reselect key next)) fun mon hmon => hasSlot_reselect hmon key next
  have hget : ∀ m', ((s.monitorStack.modify m (·.erase key)).modify m (key :: ·)).get? m' =
      (s.monitorStack.get? m').map fun l => if m' = m then key :: l.erase key else l := by
    intro m'
    rw [get?_modify, get?_modify]
    cases s.monitorStack.get? m' with
    | none | some l => split <;> rfl
  refine ⟨fun m' l hl => ?_, fun m' mon hmon => ?_, hr.slots, hr.selLive⟩
  · rw [hget m'] at hl
    obtain ⟨l0, hl0, rfl⟩ := map_eq_some_iff.1 hl
    obtain ⟨hn, hmem⟩ := h.focusStacks m' l0 hl0
    split
    · rename_i e
      subst e
      have hin : key ∈ l0 := (hmem key).2 hk
      have hp := perm_cons_erase hin
      exact ⟨hp.nodup_iff.1 hn, fun k => hp.mem_iff.symm.trans (hmem k)⟩
    · exact ⟨hn, hmem⟩
  · obtain ⟨l, hl⟩ : ∃ l, s.monitorStack.get? m' = some l := hr.kept m' mon hmon
    refine ⟨if m' = m then key :: l.erase key else l, ?_⟩
    rw [hget m', hl]
    rfl

end

end FocusReady

/-- What `detachstack` and `attachstack` do together. -/
theorem raise_eq {s : WMState} {key : ClientKey} {m : MonitorKey} (hk : s.monOf key = some m) :
    attachstack (detachstack s key) key = { s with
      monitorStack := (s.monitorStack.modify m (·.erase key)).modify m (key :: ·)
      monitors := s.monitors.modify m (·.reselect key (nextSelected s key m)) } := by
  rw [detachstack_eq hk]
  unfold attachstack
  rw [show ({ s with
      monitorStack := s.monitorStack.modify m (·.erase key)
      monitors := s.monitors.modify m (·.reselect key (nextSelected s key m)) } : WMState).monOf key = some m from hk]

/-! ## What is shown -/

def WMClient.shows (c : WMClient) (tags : BitVec 32) : Bool :=
  !(c.state.isSwallowed || c.state.isHidden) && (c.state.isSticky || c.state.tags &&& tags != 0)

variable {k : ClientKey}

theorem visible_iff {s : WMState} {m : MonitorKey} : isClientVisibleOnMonitor s k m = true ↔
      ∃ c mon, s.clients.get? k = some c ∧ s.monitors.get? m = some mon ∧ c.shows mon.activeTags = true := by
  unfold isClientVisibleOnMonitor
  cases s.clients.get? k with
  | none => exact ⟨fun h => (nomatch h), fun ⟨_, _, h, _⟩ => (nomatch h)⟩
  | some c =>
    cases s.monitors.get? m with
    | none => exact ⟨fun h => (nomatch h), fun ⟨_, _, _, h, _⟩ => (nomatch h)⟩
    | some mon =>
      refine ⟨fun h => ⟨c, mon, rfl, rfl, h⟩, ?_⟩
      rintro ⟨c', mon', hc, hmon, h⟩
      cases hc
      cases hmon
      exact h

theorem visibleByKey_iff {s : WMState} :
    isClientVisibleByKey s k = true ↔ ∃ m, s.monOf k = some m ∧ isClientVisibleOnMonitor s k m = true := by
  unfold isClientVisibleByKey
  rw [Option.any_eq_true]
  exact Iff.rfl

/-- The selection of a monitor, where all that records it agrees. -/
structure Chosen (s : WMState) (k : ClientKey) (m : MonitorKey) (mon : WMMonitor) : Prop where
  selMon : s.selMon = some m
  monitor : s.monitors.get? m = some mon
  sel : mon.sel = some k
  eligible : isApplicationFocusEligible s k = true
  visible : isClientVisibleOnMonitor s k m = true
  owned : s.monOf k = some m
  recorded : ∃ p, mon.pertag = some p ∧ p.sel[p.curTag]? = some (some k)
  head : ∃ rest, s.monitorStack.get? m = some (k :: rest)

/-- Keyboard focus, selection and highlight agree. -/
structure Agrees (ctx : DeskContext) (d : Desk) : Prop where
  ready : FocusReady ctx.locked d.wm
  focused : d.focused = d.selected.map ctx.window
  chosen : ∀ k, d.selected = some k → ∃ m mon, Chosen d.wm k m mon
  highlight : ∀ k, d.decorated k = true ↔ d.selected = some k

/-- Only the selected client may be decorated as focused. -/
def Desk.Plain (d : Desk) : Prop := ∀ k, d.decorated k = true → d.selected = some k ∧ d.isAlive k = true

theorem Chosen.alive {s : WMState} {m : MonitorKey} {mon : WMMonitor} (h : Chosen s k m mon) :
    (s.clients.get? k).isSome = true := by
  obtain ⟨c, -, hc, -, -⟩ := visible_iff.1 h.visible
  rw [hc]
  rfl

theorem Agrees.plain {ctx : DeskContext} {d : Desk} (h : Agrees ctx d) : d.Plain := by
  intro k hk
  have hsel := (h.highlight k).1 hk
  obtain ⟨m, mon, hc⟩ := h.chosen k hsel
  exact ⟨hsel, hc.alive⟩

/-! ## Focus -/

section Focus

variable {ctx : DeskContext} {r : DeskReading} {d : Desk} {client : Option ClientKey} {key : ClientKey}

open Desk

/-- What `focus` settles on shows on a live monitor that is not locked. -/
theorem focusTarget_spec (h : FocusReady ctx.locked d.wm) (ht : d.focusTarget ctx client = some key) :
    ∃ m, d.wm.monOf key = some m ∧ ctx.locked m = false ∧ isApplicationFocusEligible d.wm key = true ∧
      isClientVisibleOnMonitor d.wm key m = true := by
  rcases or_eq_some_iff.1 ht with hgiven | ⟨-, hfound⟩
  · obtain ⟨hgiven, hshown⟩ := filter_eq_some_iff.1 hgiven
    obtain ⟨-, hlocked⟩ := filter_eq_some_iff.1 hgiven
    rw [and_eq_true] at hshown
    obtain ⟨m, hm, hv⟩ := visibleByKey_iff.1 hshown.2
    unfold clientIsOnLockedMonitor at hlocked
    rw [hm, any_some, not_eq_true'] at hlocked
    exact ⟨m, hm, hlocked, hshown.1, hv⟩
  · unfold findVisibleClient at hfound
    cases hsel : d.wm.selMon with
    | none =>
      rw [hsel] at hfound
      cases hfound
    | some m =>
      rw [hsel] at hfound
      simp only at hfound
      split at hfound
      · cases hfound
      · rename_i hlocked
        have hshown := find?_some hfound
        rw [and_eq_true] at hshown
        obtain ⟨m', hm', hv⟩ := visibleByKey_iff.1 hshown.2
        have hmem := mem_of_find?_eq_some hfound
        cases hl : d.wm.monitorStack.get? m with
        | none =>
          rw [hl] at hmem
          cases hmem
        | some l =>
          rw [hl, getD_some] at hmem
          have hm := ((h.focusStacks m l hl).2 key).1 hmem
          obtain rfl := some.inj (hm'.symm.trans hm)
          exact ⟨m', hm', eq_false_iff.2 hlocked, hshown.1, hv⟩

theorem focusTarget_given (he : isApplicationFocusEligible d.wm key = true) (hv : isClientVisibleByKey d.wm key = true)
    (hl : d.clientIsOnLockedMonitor ctx key = false) : d.focusTarget ctx (some key) = some key := by
  unfold focusTarget
  simp only [filter_some, he, hv, hl, Bool.not_false, Bool.and_true, if_true, some_or]

theorem handleFocusChange_spec (hd : d.Plain) (new : Option ClientKey) :
    (d.handleFocusChangeByKey new).wm = d.wm ∧ ∀ k, (d.handleFocusChangeByKey new).decorated k = true → new = some k := by
  unfold handleFocusChangeByKey
  cases hsel : d.selected with
  | none =>
    refine ⟨rfl, fun k hk => ?_⟩
    have := (hd k hk).1
    rw [hsel] at this
    cases this
  | some current =>
    simp only
    split
    · rename_i e
      refine ⟨rfl, fun k hk => ?_⟩
      rw [← e, ← hsel]
      exact (hd k hk).1
    · unfold unfocusClient updateClientDecoration
      split
      · rw [if_neg Bool.false_ne_true]
        refine ⟨rfl, fun k hk => ?_⟩
        have hk : Function.update d.decorated current false k = true := hk
        rw [update_apply] at hk
        split at hk
        · cases hk
        · rename_i hne
          have := (hd k hk).1
          rw [hsel] at this
          exact absurd (some.inj this).symm hne
      · rename_i hdead
        refine ⟨rfl, fun k hk => ?_⟩
        obtain ⟨hk, halive⟩ := hd k hk
        rw [hsel] at hk
        obtain rfl := some.inj hk
        exact absurd halive hdead

theorem clearAttention_spec (d : Desk) (key : ClientKey) : (d.clearAttention r key).wm = d.wm ∧
      Function.update (d.clearAttention r key).decorated key true = Function.update d.decorated key true := by
  have urgent : ∀ d : Desk, (d.clearUrgent r key).wm = d.wm ∧
      Function.update (d.clearUrgent r key).decorated key true = Function.update d.decorated key true := by
    intro d
    unfold clearUrgent
    cases r.hasCompositor with
    | true => exact ⟨rfl, rfl⟩
    | false => exact ⟨rfl, update_idem _ _ _⟩
  have attention : ∀ d : Desk, (d.clearDemandsAttention r key).wm = d.wm ∧
      Function.update (d.clearDemandsAttention r key).decorated key true = Function.update d.decorated key true := by
    intro d
    unfold clearDemandsAttention
    cases r.hasCompositor with
    | true => exact ⟨rfl, rfl⟩
    | false => exact ⟨rfl, update_idem _ _ _⟩
  unfold clearAttention
  dsimp only
  split
  · split
    · exact ⟨(attention _).1.trans (urgent d).1, (attention _).2.trans (urgent d).2⟩
    · exact urgent d
  · split
    · exact attention d
    · exact ⟨rfl, rfl⟩

/-- The client that gets the focus is raised and decorated, and the backend is told its window. -/
theorem setClientFocus_spec {c : WMClient} {m : MonitorKey} (hc : d.wm.clients.get? key = some c) (hm : c.mon = some m) :
    (d.setClientFocusByKey ctx r key).2 = .ok () ∧
    (d.setClientFocusByKey ctx r key).1.wm = attachstack (detachstack { d.wm with selMon := some m } key) key ∧
    (d.setClientFocusByKey ctx r key).1.focused = some (ctx.window key) ∧
    (d.setClientFocusByKey ctx r key).1.decorated = Function.update d.decorated key true := by
  unfold Desk.setClientFocusByKey
  simp only [hc, hm, some_or]
  obtain ⟨hwm, hdec⟩ := clearAttention_spec (r := r) { d with wm := { d.wm with selMon := some m } } key
  generalize clearAttention r { d with wm := { d.wm with selMon := some m } } key = d1 at hwm hdec ⊢
  have hclients : (attachstack (detachstack d1.wm key) key).clients = d.wm.clients := by
    rw [attachstack_clients, detachstack_clients, hwm]
  unfold setfocus updateClientDecoration isAlive
  simp only [hclients, hc, isSome_some, if_true]
  refine ⟨trivial, by rw [hwm], trivial, hdec⟩

theorem updateMonitorSelection_eq {s : WMState} {m : MonitorKey} (hm : s.selMon = some m) (client : Option ClientKey) :
    updateMonitorSelection s client =
      { s with monitors := s.monitors.modify m (·.setSelectedClientForCurrentTag client) } := by
  unfold updateMonitorSelection
  rw [hm]

/-- Raised and recorded, a client that shows on a live monitor is its selection. -/
theorem chosen_focused {s : WMState} {m : MonitorKey} (h : FocusReady ctx.locked s) (hk : s.monOf key = some m)
    (he : isApplicationFocusEligible s key = true) (hv : isClientVisibleOnMonitor s key m = true) :
    ∃ mon, Chosen (updateMonitorSelection (attachstack (detachstack { s with selMon := some m } key) key) (some key))
      key m mon := by
  obtain ⟨c, mon, hc, hmon, hshows⟩ := visible_iff.1 hv
  have hk' : ({ s with selMon := some m } : WMState).monOf key = some m := hk
  rw [raise_eq hk']
  rw [updateMonitorSelection_eq rfl]
  -- the monitor, rewritten twice
  have hget : ∀ next, ((s.monitors.modify m (·.reselect key next)).modify m
      (·.setSelectedClientForCurrentTag (some key))).get? m =
      some ((mon.reselect key next).setSelectedClientForCurrentTag (some key)) := by
    intro next
    rw [get?_modify, if_pos rfl, get?_modify, if_pos rfl, hmon]
    rfl
  have hslot := hasSlot_reselect (h.slots m mon hmon) key (nextSelected { s with selMon := some m } key m)
  obtain ⟨l, hl⟩ := h.kept m mon hmon
  refine ⟨_, rfl, hget _, rfl, he, visible_iff.2 ⟨c, _, hc, hget _, ?_⟩, hk, recorded_setSelected hslot _, l.erase key, ?_⟩
  · show c.shows (mon.reselect key _).activeTags = true
    rw [activeTags_reselect]
    exact hshows
  · rw [get?_modify, if_pos rfl, get?_modify, if_pos rfl, hl]
    rfl

theorem Chosen.selected {s : WMState} {m : MonitorKey} {mon : WMMonitor} (h : Chosen s key m mon) :
    (s.selMon.bind s.monitors.get?).bind (·.sel) = some key := by
  rw [h.selMon, bind_some, h.monitor, bind_some, h.sel]

theorem selected_none {s : WMState} : ((updateMonitorSelection s none).selMon.bind
    (updateMonitorSelection s none).monitors.get?).bind (·.sel) = none := by
  unfold updateMonitorSelection
  cases hm : s.selMon with
  | none =>
    simp only
    rw [hm]
    rfl
  | some m =>
    simp only
    rw [bind_some, get?_modify, if_pos rfl]
    cases s.monitors.get? m <;> rfl

theorem agrees_unfocused (h : FocusReady ctx.locked d.wm) (hf : d.focused = none)
    (hd : ∀ k, d.decorated k = false) : Agrees ctx { d with wm := updateMonitorSelection d.wm none } := by
  have hsel : ({ d with wm := updateMonitorSelection d.wm none } : Desk).selected = none := selected_none
  refine ⟨h.updateMonitorSelection none, ?_, fun k hk => ?_, fun k => ?_⟩
  · rw [hsel]
    exact hf
  · rw [hsel] at hk
    cases hk
  · rw [hsel]
    refine iff_of_false ?_ (fun e => nomatch e)
    rw [show ({ d with wm := updateMonitorSelection d.wm none } : Desk).decorated k = false from hd k]
    exact Bool.false_ne_true

/-- Whatever agreed before, after `focus` everything does, on the client it settles on. -/
theorem focus_agrees (h : FocusReady ctx.locked d.wm) (hd : d.Plain) (client : Option ClientKey) :
    Agrees ctx (d.focus ctx r client).1 ∧ (d.focus ctx r client).1.selected = d.focusTarget ctx client := by
  unfold focus
  obtain ⟨hwm, hdec⟩ := handleFocusChange_spec hd (d.focusTarget ctx client)
  cases ht : d.focusTarget ctx client with
  | none =>
    rw [ht] at hwm hdec
    refine ⟨agrees_unfocused (d := (d.handleFocusChangeByKey none).setRootFocus) ?_ rfl fun k => ?_, selected_none⟩
    · show FocusReady ctx.locked (d.handleFocusChangeByKey none).wm
      rw [hwm]
      exact h
    · refine eq_false_iff.2 fun hk => ?_
      cases hdec k hk
  | some key =>
    rw [ht] at hwm hdec
    dsimp only
    obtain ⟨m, hm, hlocked, he, hv⟩ := focusTarget_spec h ht
    obtain ⟨c, mon, hc, hmon, -⟩ := visible_iff.1 hv
    have hcm : c.mon = some m := by
      rw [WMState.monOf, hc] at hm
      exact hm
    generalize d.handleFocusChangeByKey (some key) = d1 at hwm hdec ⊢
    rw [← hwm] at hc
    obtain ⟨hok, hwm', hfocused, hdecorated⟩ := @setClientFocus_spec ctx r _ _ _ _ hc hcm
    generalize d1.setClientFocusByKey ctx r key = result at hok hwm' hfocused hdecorated ⊢
    obtain ⟨d2, outcome⟩ := result
    subst hok
    rw [hwm] at hwm'
    obtain ⟨mon', hchosen⟩ := chosen_focused h hm he hv
    rw [← hwm'] at hchosen
    have hready : FocusReady ctx.locked d2.wm := by
      rw [hwm', raise_eq (s := { d.wm with selMon := some m }) hm]
      exact (h.select ⟨⟨mon, hmon⟩, hlocked⟩).raise hm _
    have hsel : ({ d2 with wm := updateMonitorSelection d2.wm (some key) } : Desk).selected = some key := hchosen.selected
    refine ⟨⟨hready.updateMonitorSelection _, ?_, fun k hk => ?_, fun k => ?_⟩, hsel⟩
    · rw [hsel]
      exact hfocused
    · rw [hsel] at hk
      obtain rfl := some.inj hk
      exact ⟨m, mon', hchosen⟩
    · rw [hsel]
      rw [hdecorated, update_apply]
      split
      · rename_i e
        rw [e]
        exact iff_of_true rfl rfl
      · exact ⟨fun hk => hdec k hk, fun e => absurd (some.inj e).symm ‹_›⟩

theorem focusNone_agrees (h : FocusReady ctx.locked d.wm) (hd : d.Plain) : Agrees ctx d.focusNone := by
  unfold Desk.focusNone
  cases hsel : d.selected with
  | none =>
    refine agrees_unfocused (d := d.setRootFocus) h rfl fun k => eq_false_iff.2 fun hk => ?_
    have := (hd k hk).1
    rw [hsel] at this
    cases this
  | some key =>
    have hwm : (d.unfocusClient key true).wm = d.wm := by
      unfold unfocusClient
      split <;> rfl
    refine agrees_unfocused (d := (d.unfocusClient key true).setRootFocus) (hwm ▸ h) rfl fun k => ?_
    refine eq_false_iff.2 fun hk => ?_
    unfold setRootFocus unfocusClient at hk
    split at hk
    · have hk : Function.update d.decorated key false k = true := hk
      rw [update_apply] at hk
      split at hk
      · cases hk
      · rename_i hne
        have := (hd k hk).1
        rw [hsel] at this
        exact hne (some.inj this).symm
    · rename_i hdead
      obtain ⟨hk', halive⟩ := hd k hk
      rw [hsel] at hk'
      obtain rfl := some.inj hk'
      exact hdead halive

end Focus

end Jwm
