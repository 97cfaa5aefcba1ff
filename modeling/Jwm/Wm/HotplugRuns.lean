/-
Hotplug never loses or misplaces a window. Outputs are added and removed, the tail of the monitors is
cut, and clients are sent from monitor to monitor: every state on the way is consistent.
-/
import Jwm.Wm.Hotplug
import Jwm.Wm.MonitorNumbers

namespace Jwm

open List Option WMState

/-! ## Sending a client -/

variable {mon : WMMonitor} {k : ClientKey} {client : Option ClientKey} {info : OutputInfo} {op : HotplugOp}

section Send

variable {s s' : WMState} {key : ClientKey} {m : MonitorKey}

/-- `key` is in no list, stack or selection any more; nothing else changed hands. -/
structure TakenOut (s s' : WMState) (key : ClientKey) : Prop where
  view : SameView s s'
  lists : ∀ m, s'.monitorClients.get? m = (s.monitorClients.get? m).map (·.erase key)
  focusStacks : ∀ m, s'.monitorStack.get? m = (s.monitorStack.get? m).map (·.erase key)
  faces : SameFaces s s'
  outputs : s'.outputMap = s.outputMap
  selected : ∀ m mon, s'.monitors.get? m = some mon → ∀ k ∈ mon.selections, k ≠ key ∧ s.monOf k = some m
  selMon : s'.selMon = s.selMon
  present : ∀ k, (s'.clients.get? k).isSome = (s.clients.get? k).isSome

theorem detach_frame (s : WMState) (key : ClientKey) :
    detach s key = { s with clients := (detach s key).clients, monitorClients := (detach s key).monitorClients } := by
  unfold detach
  cases s.monOf key with
  | none => rfl
  | some mon =>
    simp only
    have hs := (splice_spec s mon key).1
    generalize spliceRestoreAnchors s mon key = s1 at hs
    rw [hs]
    split
    · rfl
    · split <;> rfl

theorem detach_present (s : WMState) (key k : ClientKey) :
    ((detach s key).clients.get? k).isSome = (s.clients.get? k).isSome := by
  have spliced : ∀ mon, ((spliceRestoreAnchors s mon key).clients.get? k).isSome = (s.clients.get? k).isSome := by
    intro mon
    rw [(splice_spec s mon key).2 k]
    split
    · rfl
    · split
      · rw [isSome_map]
      · rfl
  unfold detach
  split
  · rfl
  · simp only
    split
    · exact spliced _
    · split
      · exact spliced _
      · exact spliced _

theorem takenOut_orphan (h : Owned s) (hk : s.monOf key = none) : TakenOut s s key := by
  have hne : ∀ m, s.monOf key ≠ some m := fun m e => by rw [hk] at e; cases e
  refine ⟨.refl s, fun m => ?_, fun m => ?_, .refl s, rfl, fun m mon hm k hsel => ?_, rfl, fun _ => rfl⟩
  · cases hl : s.monitorClients.get? m with
    | none => rfl
    | some l => rw [map_some, erase_of_not_mem (h.not_mem_list hl (hne m))]
  · cases hl : s.monitorStack.get? m with
    | none => rfl
    | some l => rw [map_some, erase_of_not_mem (h.not_mem_stack hl (hne m))]
  · have hkm := h.selected m mon hm k hsel
    refine ⟨?_, hkm⟩
    rintro rfl
    exact hne m hkm

/-- The selection that takes the place of a client that leaves the focus stack. -/
def nextSelected (s : WMState) (key : ClientKey) (mon : MonitorKey) : Option ClientKey :=
  findNextVisibleClientByMon { s with monitorStack := s.monitorStack.modify mon (·.erase key) } mon

def WMMonitor.reselect (m : WMMonitor) (key : ClientKey) (next : Option ClientKey) : WMMonitor :=
  if m.sel = some key then { m with sel := next } else m

theorem detachstack_eq (hk : s.monOf key = some m) : detachstack s key = { s with
      monitorStack := s.monitorStack.modify m (·.erase key)
      monitors := s.monitors.modify m (·.reselect key (nextSelected s key m)) } := by
  unfold detachstack
  rw [hk]
  rfl

theorem mem_selections_reselect {next : Option ClientKey}
    (hk : k ∈ (mon.reselect key next).selections) : k ∈ mon.selections ∨ next = some k := by
  unfold WMMonitor.reselect at hk
  split at hk
  · rcases mem_selections.1 hk with hs | hp
    · exact .inr hs
    · exact .inl (mem_selections.2 (.inr hp))
  · exact .inl hk

theorem nextSelected_mem (h : Owned s) (hk : s.monOf key = some m) {s0 : WMState}
    (hstack : s0.monitorStack = s.monitorStack) (hn : nextSelected s0 key m = some k) :
    k ≠ key ∧ s.monOf k = some m := by
  have hmem : k ∈ (((s0.monitorStack.modify m (·.erase key)).get? m).getD []) := mem_of_find?_eq_some hn
  rw [hstack, (h.onlyIn_stacks hk).get?_erase (fun _ _ => rfl) m] at hmem
  cases hl : s.monitorStack.get? m with
  | none => rw [hl] at hmem; cases hmem
  | some l =>
    rw [hl, map_some, getD_some] at hmem
    obtain ⟨hnd, hiff⟩ := h.focusStacks m l hl
    obtain ⟨hne, hkl⟩ := hnd.mem_erase_iff.1 hmem
    exact ⟨hne, (hiff k).1 hkl⟩

theorem face_reselect (mon : WMMonitor) (key : ClientKey) (next : Option ClientKey) :
    (mon.reselect key next).num = mon.num ∧ (mon.reselect key next).rect = mon.rect := by
  unfold WMMonitor.reselect
  split <;> exact ⟨rfl, rfl⟩

theorem takenOut_detach (h : Owned s) (hk : s.monOf key = some m) : TakenOut s { detachstack (detach s key) key with
      monitors := (detachstack (detach s key) key).monitors.modify m (·.clearSelectionOf key) } key := by
  have hd := delisted_detach hk
  have hframe := detach_frame s key
  have hpresent := detach_present s key
  generalize detach s key = s0 at hd hframe hpresent
  have hmonitors : s0.monitors = s.monitors := by rw [hframe]
  have hstack : s0.monitorStack = s.monitorStack := by rw [hframe]
  have hsel : s0.selMon = s.selMon := by rw [hframe]
  have horder : s0.monitorOrder = s.monitorOrder := by rw [hframe]
  have hout : s0.outputMap = s.outputMap := by rw [hframe]
  rw [detachstack_eq ((hd.view.mon key).trans hk)]
  refine ⟨⟨hd.view.mon, hd.view.floating⟩, fun m' => ?_, fun m' => ?_, ?_, hout, fun m' mon hmon k hmem => ?_, hsel, hpresent⟩
  · rw [hd.lists m']
    split
    · rfl
    · rename_i hm
      cases hl : s.monitorClients.get? m' with
      | none => rfl
      | some l => rw [map_some, erase_of_not_mem ((h.onlyIn_lists hk).other m' l hl hm)]
  · rw [hstack]
    exact (h.onlyIn_stacks hk).get?_erase (fun _ _ => rfl) m'
  · have first : SameFaces s { s0 with
        monitorStack := s0.monitorStack.modify m (·.erase key)
        monitors := s0.monitors.modify m (·.reselect key (nextSelected s0 key m)) } :=
      .modifyMonitor m (fun mon => face_reselect mon key _) horder (by rw [hmonitors])
    exact first.trans (.modifyMonitor m (f := (·.clearSelectionOf key)) (fun _ => ⟨rfl, rfl⟩) rfl rfl)
  · have hmon : ((s0.monitors.modify m (·.reselect key (nextSelected s0 key m))).modify m
        (·.clearSelectionOf key)).get? m' = some mon := hmon
    rw [KeyMap.get?_modify, KeyMap.get?_modify, hmonitors] at hmon
    split at hmon
    · rename_i e
      obtain ⟨mon1, hmon1, rfl⟩ := map_eq_some_iff.1 hmon
      obtain ⟨mon0, hmon0, rfl⟩ := map_eq_some_iff.1 hmon1
      obtain ⟨hmem, hne⟩ := mem_selections_clear hmem
      refine ⟨hne, ?_⟩
      rcases mem_selections_reselect hmem with hold | hnext
      · exact h.selected m' mon0 hmon0 k hold
      · rw [e]
        exact (nextSelected_mem h hk hstack hnext).2
    · rename_i e
      have hkm := h.selected m' mon hmon k hmem
      refine ⟨?_, hkm⟩
      rintro rfl
      rw [hk] at hkm
      exact e (some.inj hkm).symm

theorem moves_push (h : Owned s) (ht : TakenOut s s' key) (hc : (s.clients.get? key).isSome = true)
    {f : WMClient → WMClient} (hf : ∀ c, (f c).mon = some m) (hfl : ∀ c, (f c).state.isFloating = c.state.isFloating) :
    Moves s { s'.modifyClient key f with
      monitorClients := s'.monitorClients.modify m (· ++ [key])
      monitorStack := s'.monitorStack.modify m (key :: ·) } key (some m) := by
  refine ⟨fun k => ?_, fun k => ?_, fun m' => ?_, fun m' => ?_, ?_, ht.outputs, ht.selected⟩
  · show (s'.modifyClient key f).monOf k = _
    rw [monOf_modifyClient]
    split
    · rename_i e
      subst e
      rw [← ht.present k] at hc
      obtain ⟨c, hc⟩ := isSome_iff_exists.1 hc
      rw [hc]
      exact hf c
    · exact ht.view.mon k
  · show (s'.modifyClient key f).isClientFloating k = _
    rw [isClientFloating_modifyClient hfl]
    exact ht.view.floating k
  · exact get?_push h.lists.nodup ht.lists (fun _ _ => rfl) m'
  · exact get?_push (fun m l hl => (h.focusStacks m l hl).1) ht.focusStacks (fun _ _ => rfl) m'
  · exact ⟨ht.faces.order, ht.faces.face⟩

theorem attachstack_reorder (s : WMState) (key : ClientKey) :
    attachstack (reorderClientInMonitorGroups s key) key = reorderClientInMonitorGroups (attachstack s key) key := by
  have hmon : (reorderClientInMonitorGroups s key).monOf key = s.monOf key := by rw [reorder_frame]; rfl
  unfold attachstack
  rw [hmon]
  cases s.monOf key with
  | none => rfl
  | some mon =>
    simp only
    unfold reorderClientInMonitorGroups
    simp only
    split
    · rfl
    · split
      · rfl
      · split
        · rfl
        · split
          · rfl
          · split <;> rfl

end Send

/-! ## Focus -/

section Focus

variable {s s' : WMState} {key : ClientKey} {m : MonitorKey}

/-- Only the order of the focus stacks and the selections change. -/
structure Refocused (s s' : WMState) : Prop where
  clients : s'.clients = s.clients
  lists : s'.monitorClients = s.monitorClients
  focusStacks : ∀ m, (s'.monitorStack.get? m = none ∧ s.monitorStack.get? m = none) ∨
    ∃ l l', s'.monitorStack.get? m = some l' ∧ s.monitorStack.get? m = some l ∧ l'.Perm l
  faces : SameFaces s s'
  outputs : s'.outputMap = s.outputMap
  selected : ∀ m mon, s'.monitors.get? m = some mon → ∀ k ∈ mon.selections, s.monOf k = some m

theorem Refocused.consistent (hr : Refocused s s') (h : Consistent s) : Consistent s' := by
  have hmon : ∀ k, s'.monOf k = s.monOf k := fun k => by rw [monOf, hr.clients]; rfl
  have hfl : s'.isClientFloating = s.isClientFloating := by
    funext k
    rw [isClientFloating, hr.clients]
    rfl
  refine ⟨⟨⟨?_, ?_⟩, ?_, ?_, ?_, ?_, ?_⟩, hr.faces.ordered h.order, ?_⟩
  · rw [hr.lists]
    exact h.lists.nodup
  · intro m l hl k
    rw [hr.lists] at hl
    rw [hmon k]
    exact h.lists.mem m l hl k
  · intro m l' hl'
    rcases hr.focusStacks m with ⟨hnone, -⟩ | ⟨l, l1, hl1, hl, hp⟩
    · rw [hnone] at hl'; cases hl'
    · rw [hl1] at hl'
      cases hl'
      obtain ⟨hn, hiff⟩ := h.focusStacks m l hl
      refine ⟨hp.nodup_iff.2 hn, fun k => ?_⟩
      rw [hp.mem_iff, hmon k]
      exact hiff k
  · intro k m hk
    rw [hmon k] at hk
    rw [hr.faces.face]
    exact h.live k m hk
  · intro m f hf
    rw [hr.faces.face] at hf
    obtain ⟨hl, l, hs⟩ := h.kept m f hf
    refine ⟨by rw [hr.lists]; exact hl, ?_⟩
    rcases hr.focusStacks m with ⟨-, hnone⟩ | ⟨l0, l', hl', -, -⟩
    · rw [hnone] at hs; cases hs
    · exact ⟨l', hl'⟩
  · rw [hr.outputs]
    exact h.outputs
  · intro m mon hm k hk
    rw [hmon k]
    exact hr.selected m mon hm k hk
  · intro m l hl
    rw [hr.lists] at hl
    rw [hfl]
    exact h.grouped m l hl

theorem Refocused.trans {s'' : WMState} (h1 : Refocused s s') (h2 : Refocused s' s'') : Refocused s s'' := by
  have hmon : ∀ k, s'.monOf k = s.monOf k := fun k => by rw [monOf, h1.clients]; rfl
  refine ⟨h2.clients.trans h1.clients, h2.lists.trans h1.lists, fun m => ?_, h1.faces.trans h2.faces,
    h2.outputs.trans h1.outputs, fun m mon hm k hk => (hmon k) ▸ h2.selected m mon hm k hk⟩
  rcases h2.focusStacks m with ⟨e2, e1⟩ | ⟨l, l', hl', hl, hp⟩ <;>
    rcases h1.focusStacks m with ⟨e1', e0⟩ | ⟨l0, l1, hl1, hl0, hp0⟩
  · exact .inl ⟨e2, e0⟩
  · rw [e1] at hl1; cases hl1
  · rw [e1'] at hl; cases hl
  · rw [hl] at hl1
    cases hl1
    exact .inr ⟨l0, l', hl', hl0, hp.trans hp0⟩

theorem Refocused.refl (h : Owned s) : Refocused s s := by
  refine ⟨rfl, rfl, fun m => ?_, .refl s, rfl, h.selected⟩
  cases s.monitorStack.get? m with
  | none => exact .inl ⟨rfl, rfl⟩
  | some l => exact .inr ⟨l, l, rfl, rfl, .refl l⟩

theorem refocused_setClientFocus (h : Owned s) (hk : s.monOf key = some m) : Refocused s (setClientFocusByKey s key) := by
  have heq : setClientFocusByKey s key = { s with
      selMon := some m
      monitorStack := (s.monitorStack.modify m (·.erase key)).modify m (key :: ·)
      monitors := s.monitors.modify m
        (·.reselect key (nextSelected { s with selMon := some m } key m)) } := by
    unfold setClientFocusByKey
    rw [hk]
    have hk1 : ({ s with selMon := some m } : WMState).monOf key = some m := hk
    simp only
    rw [detachstack_eq hk1]
    unfold attachstack
    have hk2 : ({ ({ s with selMon := some m } : WMState) with
        monitorStack := s.monitorStack.modify m (·.erase key)
        monitors := s.monitors.modify m
          (·.reselect key (nextSelected { s with selMon := some m } key m)) } : WMState).monOf key = some m := hk
    rw [hk2]
  rw [heq]
  refine ⟨rfl, rfl, fun m' => ?_, ?_, rfl, fun m' mon hmon k hmem => ?_⟩
  · rw [KeyMap.get?_modify, KeyMap.get?_modify]
    cases hl : s.monitorStack.get? m' with
    | none => refine .inl ⟨?_, rfl⟩; split <;> rfl
    | some l =>
      refine .inr ⟨l, if m' = m then key :: l.erase key else l, ?_, rfl, ?_⟩
      · split <;> rfl
      · split
        · rename_i e
          subst e
          exact (perm_cons_erase (((h.focusStacks m' l hl).2 key).2 hk)).symm
        · exact .refl l
  · exact .modifyMonitor m (fun mon => face_reselect mon key _) rfl rfl
  · have hmon : (s.monitors.modify m (·.reselect key (nextSelected { s with selMon := some m } key m))).get? m' =
        some mon := hmon
    rw [KeyMap.get?_modify] at hmon
    split at hmon
    · rename_i e
      obtain ⟨mon0, hmon0, rfl⟩ := map_eq_some_iff.1 hmon
      rcases mem_selections_reselect hmem with hold | hnext
      · exact h.selected m' mon0 hmon0 k hold
      · rw [e]
        exact (nextSelected_mem h hk rfl hnext).2
    · exact h.selected m' mon hmon k hmem

theorem mem_selections_setSelected
    (hk : k ∈ (mon.setSelectedClientForCurrentTag client).selections) : k ∈ mon.selections ∨ client = some k := by
  rcases mem_selections.1 hk with hs | ⟨p, hp, hslot⟩
  · exact .inr hs
  · obtain ⟨p', hp', rfl⟩ := map_eq_some_iff.1 hp
    rcases mem_or_eq_of_mem_set hslot with hold | e
    · exact .inl (mem_selections.2 (.inr ⟨p', hp', hold⟩))
    · exact .inr e.symm

theorem refocused_updateMonitorSelection (h : Owned s)
    (hk : ∀ k, client = some k → s.selMon = s.monOf k) : Refocused s (updateMonitorSelection s client) := by
  unfold updateMonitorSelection
  cases hsel : s.selMon with
  | none => exact .refl h
  | some m =>
    have hr := Refocused.refl h
    refine ⟨rfl, rfl, hr.focusStacks, .modifyMonitor m (f := (·.setSelectedClientForCurrentTag client))
      (fun _ => ⟨rfl, rfl⟩) rfl rfl, rfl, fun m' mon hmon k hmem => ?_⟩
    have hmon : (s.monitors.modify m (·.setSelectedClientForCurrentTag client)).get? m' = some mon := hmon
    rw [KeyMap.get?_modify] at hmon
    split at hmon
    · rename_i e
      obtain ⟨mon0, hmon0, rfl⟩ := map_eq_some_iff.1 hmon
      rcases mem_selections_setSelected hmem with hold | hnew
      · exact h.selected m' mon0 hmon0 k hold
      · rw [e, ← hsel]
        exact (hk k hnew).symm
    · exact h.selected m' mon hmon k hmem

theorem findVisibleClient_mon (h : Owned s) {locked : MonitorKey → Bool}
    (hf : findVisibleClient locked s = some k) : s.selMon = s.monOf k := by
  unfold findVisibleClient at hf
  cases hsel : s.selMon with
  | none => rw [hsel] at hf; cases hf
  | some m =>
    rw [hsel] at hf
    simp only at hf
    split at hf
    · cases hf
    · have hmem := mem_of_find?_eq_some hf
      cases hl : s.monitorStack.get? m with
      | none => rw [hl] at hmem; cases hmem
      | some l =>
        rw [hl, getD_some] at hmem
        exact (((h.focusStacks m l hl).2 k).1 hmem).symm

theorem refocused_focusNone (h : Consistent s) (locked : MonitorKey → Bool) (ok : FocusOutcome) :
    Refocused s (focusNone locked ok s) ∧
      ((focusNone locked ok s).selMon = s.selMon ∨
        ∃ k m, (focusNone locked ok s).selMon = some m ∧ s.monOf k = some m) := by
  have hsel : ∀ (s1 : WMState) client, (updateMonitorSelection s1 client).selMon = s1.selMon := by
    intro s1 client
    unfold updateMonitorSelection
    split <;> rfl
  unfold focusNone
  simp only
  split
  · exact ⟨.refl h.toOwned, .inl rfl⟩
  · cases hf : findVisibleClient locked s with
    | none =>
      simp only [map_none, getD_none]
      split
      · exact ⟨refocused_updateMonitorSelection h.toOwned (fun k e => by cases e), .inl (hsel _ _)⟩
      · exact ⟨.refl h.toOwned, .inl rfl⟩
    | some k =>
      simp only [map_some, getD_some]
      have hk := findVisibleClient_mon h.toOwned hf
      cases hm : s.monOf k with
      | none =>
        have hset : setClientFocusByKey s k = s := by unfold setClientFocusByKey; rw [hm]
        rw [hset]
        split
        · refine ⟨refocused_updateMonitorSelection h.toOwned (fun k' e => ?_), .inl (hsel _ _)⟩
          cases e
          exact hk
        · exact ⟨.refl h.toOwned, .inl rfl⟩
      | some m =>
        have hr := refocused_setClientFocus h.toOwned hm
        have hnew : (setClientFocusByKey s k).selMon = some m := by
          unfold setClientFocusByKey
          rw [hm]
          simp only
          rw [detachstack_eq (show ({ s with selMon := some m } : WMState).monOf k = some m from hm)]
          unfold attachstack
          split <;> rfl
        have hmon : (setClientFocusByKey s k).monOf k = s.monOf k := by rw [monOf, hr.clients]; rfl
        split
        · have hupd : Refocused (setClientFocusByKey s k) (updateMonitorSelection (setClientFocusByKey s k) (some k)) :=
            refocused_updateMonitorSelection (hr.consistent h).toOwned (fun k' e => by
              cases e
              rw [hnew, hmon, hm])
          exact ⟨hr.trans hupd, .inr ⟨k, m, by rw [hsel, hnew], hm⟩⟩
        · exact ⟨hr, .inr ⟨k, m, hnew, hm⟩⟩

end Focus

/-! ## Sending keeps consistency -/

section Sendmon

variable {s : WMState}

theorem present_modifyClient (s : WMState) (key k : ClientKey) (f : WMClient → WMClient) :
    ((s.modifyClient key f).clients.get? k).isSome = (s.clients.get? k).isSome := by
  rw [modifyClient_get?]
  split
  · rw [isSome_map]
  · rfl

/-- A client that was taken out is attached to a live monitor, and focus is brought up to date. -/
theorem sent_spec (h : Consistent s) {s1 : WMState} {key : ClientKey} (ht : TakenOut s s1 key) {client : WMClient}
    (hc : s.clients.get? key = some client) {target : MonitorKey}
    (htarget : s.monitors.get? target = some mon) (locked : MonitorKey → Bool) (place : ClientGeometry → ClientGeometry)
    (ok : FocusOutcome) :
    let r := focusNone locked ok (attachstack (attachBack (s1.modifyClient key fun client =>
      { client with
        mon := some target
        state := { client.state with tags := mon.activeTags }
        geometry := place client.geometry }) key) key)
    Consistent r ∧ (∀ k, (r.clients.get? k).isSome = (s.clients.get? k).isSome) ∧ SameFaces s r ∧
      (r.selMon = s.selMon ∨ ∃ m, r.selMon = some m ∧ m ∈ s.monitorOrder) := by
  have hf : ∃ f, s.face target = some f := ⟨_, by rw [face, htarget]; rfl⟩
  have hpresent : (s.clients.get? key).isSome = true := by rw [hc]; rfl
  have hm := moves_push (m := target) h.toOwned ht hpresent (f := fun client =>
    { client with
      mon := some target
      state := { client.state with tags := mon.activeTags }
      geometry := place client.geometry }) (fun _ => rfl) (fun _ => rfl)
  have hpushed : ∀ {s2 : WMState}, s2.monOf key = some target → attachstack (attachBack s2 key) key =
      reorderClientInMonitorGroups { s2 with
        monitorClients := s2.monitorClients.modify target (· ++ [key])
        monitorStack := s2.monitorStack.modify target (key :: ·) } key := by
    intro s2 hk
    unfold attachBack
    simp only [hk]
    rw [attachstack_reorder]
    have hk' : ({ s2 with monitorClients := s2.monitorClients.modify target (· ++ [key]) } : WMState).monOf key =
        some target := hk
    unfold attachstack
    rw [hk']
  have hmon1 : (s1.modifyClient key fun client =>
      { client with
        mon := some target
        state := { client.state with tags := mon.activeTags }
        geometry := place client.geometry }).monOf key = some target := (hm.mon key).trans (if_pos rfl)
  intro r
  have hr : r = focusNone locked ok (attachstack (attachBack (s1.modifyClient key fun client =>
      { client with
        mon := some target
        state := { client.state with tags := mon.activeTags }
        geometry := place client.geometry }) key) key) := rfl
  rw [hpushed hmon1] at hr
  clear_value r
  generalize hs2 : ({ (s1.modifyClient key fun client =>
      { client with
        mon := some target
        state := { client.state with tags := mon.activeTags }
        geometry := place client.geometry }) with
    monitorClients := s1.monitorClients.modify target (· ++ [key])
    monitorStack := s1.monitorStack.modify target (key :: ·) } : WMState) = s2 at hm
  have hr : r = focusNone locked ok (reorderClientInMonitorGroups s2 key) := by
    rw [hr, ← hs2]
    rfl
  have h2 := h.toOwned.moves hm (fun m e => by cases e; exact hf)
  have hg2 : RegroupsBut s2 [key] :=
    RegroupsBut.moves (fun m l hl => (h.grouped m l hl).but [key]) hm mem_cons_self
  have hfaces : SameFaces s (reorderClientInMonitorGroups s2 key) := hm.faces.trans (.reorder s2 key)
  have h3 : Consistent (reorderClientInMonitorGroups s2 key) :=
    ⟨h2.reorder key, hfaces.ordered h.order, fun m l hl => groupedBut_nil.1 (RegroupsBut.reorder h2 hg2 m l hl)⟩
  have hclients : (reorderClientInMonitorGroups s2 key).clients = s2.clients := by rw [reorder_frame]
  have hsel2 : (reorderClientInMonitorGroups s2 key).selMon = s.selMon := by
    rw [reorder_frame, ← hs2]
    exact ht.selMon
  obtain ⟨hfocus, hsel⟩ := refocused_focusNone h3 locked ok
  rw [hr]
  refine ⟨hfocus.consistent h3, fun k => ?_, ?_, ?_⟩
  · rw [hfocus.clients, hclients, ← hs2]
    exact (present_modifyClient s1 key k _).trans (ht.present k)
  · exact hfaces.trans hfocus.faces
  · rcases hsel with hsame | ⟨k, m, hnew, hk⟩
    · exact .inl (hsame.trans hsel2)
    · refine .inr ⟨m, hnew, ?_⟩
      rw [← hfaces.order]
      exact (h3.order.mem m).2 (h3.live k m hk)

/-- Sending a client leaves a consistent state; it removes no client, and the selected monitor is as
before or that of a client. -/
theorem sendmon_spec (h : Consistent s) (locked : MonitorKey → Bool) (place : ClientGeometry → ClientGeometry)
    (ok : FocusOutcome) (key : ClientKey) (target : MonitorKey) :
    Consistent (sendmon locked place ok s key target) ∧
      (∀ k, ((sendmon locked place ok s key target).clients.get? k).isSome = (s.clients.get? k).isSome) ∧
      SameFaces s (sendmon locked place ok s key target) ∧
      ((sendmon locked place ok s key target).selMon = s.selMon ∨
        ∃ m, (sendmon locked place ok s key target).selMon = some m ∧ m ∈ s.monitorOrder) := by
  have same : ∀ {r : WMState}, r = s → Consistent r ∧ (∀ k, (r.clients.get? k).isSome = (s.clients.get? k).isSome) ∧
      SameFaces s r ∧ (r.selMon = s.selMon ∨ ∃ m, r.selMon = some m ∧ m ∈ s.monitorOrder) := by
    rintro r rfl
    exact ⟨h, fun _ => rfl, .refl r, .inl rfl⟩
  unfold sendmon
  cases htarget : s.monitors.get? target with
  | none => exact same rfl
  | some targetMonitor =>
    cases hc : s.clients.get? key with
    | none => exact same rfl
    | some client =>
      simp only
      split
      · exact same rfl
      · cases hmon : client.mon with
        | none =>
          have hk : s.monOf key = none := by rw [monOf, hc]; exact hmon
          have hd : detach s key = s := by simp only [detach, hk]
          have hs : detachstack s key = s := by simp only [detachstack, hk]
          simp only [hd, hs]
          exact sent_spec h (takenOut_orphan h.toOwned hk) hc htarget locked place ok
        | some source =>
          have hk : s.monOf key = some source := by rw [monOf, hc]; exact hmon
          exact sent_spec h (takenOut_detach h.toOwned hk) hc htarget locked place ok

end Sendmon

/-! ## What every change of the outputs leaves alone -/

/-- No client comes or goes, and the monitors and the selected one stay. -/
structure KeepsClients (s s' : WMState) : Prop where
  present : ∀ k, (s'.clients.get? k).isSome = (s.clients.get? k).isSome
  order : s'.monitorOrder = s.monitorOrder
  selMon : s'.selMon = s.selMon

namespace KeepsClients

variable {s s' s'' : WMState}

theorem refl (s : WMState) : KeepsClients s s := ⟨fun _ => rfl, rfl, rfl⟩

theorem trans (h : KeepsClients s s') (h' : KeepsClients s' s'') : KeepsClients s s'' :=
  ⟨fun k => (h'.present k).trans (h.present k), h'.order.trans h.order, h'.selMon.trans h.selMon⟩

theorem foldl {α : Type} {f : WMState → α → WMState} (hf : ∀ s a, KeepsClients s (f s a)) :
    ∀ (l : List α) (s : WMState), KeepsClients s (l.foldl f s)
  | [], s => .refl s
  | a :: l, s => (hf s a).trans (foldl hf l (f s a))

theorem modifyClient (s : WMState) (key : ClientKey) (f : WMClient → WMClient) :
    KeepsClients s (s.modifyClient key f) :=
  ⟨fun k => present_modifyClient s key k f, rfl, rfl⟩

theorem transferClient (source : MonitorKey) (target : Option MonitorKey) (tags : BitVec 32)
    (retired : Option ClientKey) (parked : List ClientKey) (s : WMState) (key : ClientKey) :
    KeepsClients s (transferClient source target tags retired parked s key) := by
  unfold Jwm.transferClient
  simp only
  split
  · exact ⟨fun k => present_modifyClient _ key k _, rfl, rfl⟩
  · split
    · exact ⟨fun k => present_modifyClient _ key k _, rfl, rfl⟩
    · exact ⟨fun k => (present_modifyClient _ key k _).trans (present_modifyClient _ key k _), rfl, rfl⟩

theorem attachClientTo (monitor : MonitorKey) (tags : BitVec 32) (preserve : List ClientKey) (s : WMState)
    (key : ClientKey) : KeepsClients s (attachClientTo monitor tags preserve s key) := by
  unfold Jwm.attachClientTo
  split
  · exact .refl s
  · split
    · exact .refl s
    · exact (KeepsClients.modifyClient s key _).trans ⟨fun _ => rfl, rfl, rfl⟩

section

variable (ctx : HotplugContext) (s : WMState)

theorem migrateClient (key : ClientKey) : KeepsClients s (migrateClient ctx s key) := by
  unfold Jwm.migrateClient
  rw [reorder_frame]
  exact (KeepsClients.modifyClient s key _).trans ⟨fun _ => rfl, rfl, rfl⟩

theorem moveClientsToFirstMonitor (m : MonitorKey) : KeepsClients s (moveClientsToFirstMonitor ctx s m) := by
  unfold Jwm.moveClientsToFirstMonitor transferOrOrphanMonitorClients
  simp only
  split
  · exact foldl (transferClient _ _ _ _ _) _ s
  · exact (foldl (transferClient _ _ _ _ _) _ s).trans (foldl (migrateClient ctx) _ _)

theorem attachUnassigned : KeepsClients s (attachUnassignedClientsToSelectedMonitor ctx s) := by
  unfold attachUnassignedClientsToSelectedMonitor
  split
  · exact .refl s
  · unfold attachClientsToMonitor
    simp only
    split
    · exact .refl s
    · exact (foldl (attachClientTo _ _ _) _ s).trans (foldl (migrateClient ctx) _ _)

end

end KeepsClients

/-- The selected monitor, when there is one, is a live one. -/
def SelLive (s : WMState) : Prop := ∀ m, s.selMon = some m → m ∈ s.monitorOrder

theorem retireMonitor_keeps {s : WMState} (ctx : HotplugContext) (m : MonitorKey)
    (hsel : ∀ k, s.selMon = some k → k ≠ m → k ∈ s.monitorOrder) :
    (∀ k, ((retireMonitor ctx s m).clients.get? k).isSome = (s.clients.get? k).isSome) ∧
      SelLive (retireMonitor ctx s m) := by
  have hk := KeepsClients.moveClientsToFirstMonitor ctx s m
  refine ⟨hk.present, fun k hs => ?_⟩
  unfold retireMonitor removeMonitorState at hs ⊢
  simp only at hs ⊢
  split at hs
  · exact mem_of_head? hs
  · rename_i hne
    have hkm : k ≠ m := fun e => hne (e ▸ hs)
    rw [hk.selMon] at hs
    rw [mem_filter, hk.order]
    exact ⟨hsel k hs hkm, by simpa using hkm⟩

theorem removeExcessLoop_keeps (ctx : HotplugContext) (n : Nat) : ∀ (fuel : Nat) {s : WMState}, SelLive s →
    (∀ k, ((removeExcessLoop ctx n fuel s).clients.get? k).isSome = (s.clients.get? k).isSome) ∧
      SelLive (removeExcessLoop ctx n fuel s)
  | 0, _, h => ⟨fun _ => rfl, h⟩
  | fuel + 1, s, h => by
    unfold removeExcessLoop
    split
    · exact ⟨fun _ => rfl, h⟩
    · rcases eq_nil_or_concat s.monitorOrder with he | ⟨front, m, ho⟩
      · rw [show s.monitorOrder.getLast? = none by rw [he]; rfl]
        exact ⟨fun _ => rfl, h⟩
      · rw [concat_eq_append] at ho
        have hl : s.monitorOrder.getLast? = some m := by rw [ho]; simp
        have hd : s.monitorOrder.dropLast = front := by rw [ho]; simp
        rw [hl, hd]
        have hsel : ∀ k, s.selMon = some k → k ≠ m → k ∈ front := by
          intro k hk hne
          have hmem := h k hk
          rw [ho, mem_append, mem_singleton] at hmem
          exact hmem.resolve_right hne
        obtain ⟨hp, hs⟩ := retireMonitor_keeps (s := { s with monitorOrder := front }) ctx m hsel
        obtain ⟨hp', hs'⟩ := removeExcessLoop_keeps ctx n fuel hs
        exact ⟨fun k => (hp' k).trans (hp k), hs'⟩

/-! ## Tags -/

/-- Nothing but the tags that are read: each client has the tags it had. -/
def SameTags (s s' : WMState) : Prop :=
  ∀ k, (s'.clients.get? k).map (·.state.tags) = (s.clients.get? k).map (·.state.tags)

theorem sameTags_orphan (source : MonitorKey) (tags : BitVec 32) (retired : Option ClientKey) (parked : List ClientKey) :
    ∀ (keys : List ClientKey) (s : WMState), SameTags s (keys.foldl (transferClient source none tags retired parked) s)
  | [], _ => fun _ => rfl
  | key :: keys, s => fun k => by
    rw [foldl_cons, sameTags_orphan source tags retired parked keys _ k]
    have hmod : ∀ (s : WMState), ((s.modifyClient key fun client => { client with mon := none }).clients.get? k).map
        (·.state.tags) = (s.clients.get? k).map (·.state.tags) := by
      intro s
      rw [modifyClient_get?]
      split
      · cases s.clients.get? k <;> rfl
      · rfl
    unfold transferClient
    simp only
    split <;> exact hmod _

theorem sameTags_retireMonitor {s : WMState} (ctx : HotplugContext) (m : MonitorKey)
    (hlast : (retireMonitor ctx s m).monitorOrder = []) : SameTags s (retireMonitor ctx s m) := by
  have horder := (KeepsClients.moveClientsToFirstMonitor ctx s m).order
  have hnone : s.monitorOrder.filter (· != m) = [] := by
    rw [← horder]
    exact hlast
  have ht : migrationTarget ctx s m = none := by
    unfold migrationTarget
    rw [hnone]
    rfl
  show SameTags s (moveClientsToFirstMonitor ctx s m)
  unfold moveClientsToFirstMonitor transferOrOrphanMonitorClients
  simp only [ht]
  exact sameTags_orphan _ _ _ _ _ s

/-! ## Runs -/

/-- What happens to the outputs and to the windows on them. -/
inductive HotplugOp where
  | added (cfg : MonitorConfig) (ctx : HotplugContext) (key : MonitorKey) (info : OutputInfo)
  | removed (ctx : HotplugContext) (monitor : MonitorKey)
  | removeExcess (ctx : HotplugContext) (targetCount : Nat)
  | sendmon (locked : MonitorKey → Bool) (place : ClientGeometry → ClientGeometry) (ok : FocusOutcome)
      (client : ClientKey) (target : MonitorKey)

def hotplug (s : WMState) : HotplugOp → WMState × Unit
  | .added cfg ctx key info => (handleOutputAdded cfg ctx s key info, ())
  | .removed ctx monitor => (retireMonitor ctx s monitor, ())
  | .removeExcess ctx n => (removeExcessMonitors ctx s n, ())
  | .sendmon locked place ok client target => (sendmon locked place ok s client target, ())

def HandsOutKey (s : WMState) : HotplugOp → Prop
  | .added _ _ key _ => s.monitors.get? key = none
  | _ => True

/-- What holds between any two changes. -/
structure Plugged (s : WMState) : Prop extends Consistent s where
  selLive : SelLive s

section Step

variable {s : WMState}

theorem added_spec (h : Plugged s) (cfg : MonitorConfig) (ctx : HotplugContext) {key : MonitorKey}
    (hkey : s.monitors.get? key = none) (hid : ∀ k, s.outputMap.get? k ≠ some info.id) :
    let r := attachUnassignedClientsToSelectedMonitor ctx (addMonitor cfg s key info)
    Plugged r ∧ (∀ k, (r.clients.get? k).isSome = (s.clients.get? k).isSome) ∧
      ∀ k c, r.clients.get? k = some c → c.mon = none →
        (k ∈ ctx.parked s ∧ (s.clients.get? k).any (·.state.isHidden) = false) ∨ k ∈ ctx.bars := by
  have hadd := consistent_addMonitor h.toConsistent cfg hkey hid
  have hsel : SelLive (addMonitor cfg s key info) := by
    intro m hm
    show m ∈ s.monitorOrder ++ [key]
    rw [mem_append, mem_singleton]
    rcases or_eq_some_iff.1 hm with hold | ⟨-, hnew⟩
    · exact .inl (h.selLive m hold)
    · exact .inr (some.inj hnew).symm
  obtain ⟨hr, hmon⟩ := attachUnassigned_spec hadd ctx
  have hkeep := KeepsClients.attachUnassigned ctx (addMonitor cfg s key info)
  intro r
  refine ⟨⟨hr, fun m hm => ?_⟩, hkeep.present, fun k c hc hnone => ?_⟩
  · rw [hkeep.order]
    rw [hkeep.selMon] at hm
    exact hsel m hm
  · obtain ⟨m, hm⟩ : ∃ m, (addMonitor cfg s key info).selMon = some m := by
      cases hs : s.selMon with
      | none => exact ⟨key, by show s.selMon.or (some key) = _; rw [hs]; rfl⟩
      | some m => exact ⟨m, by show s.selMon.or (some key) = _; rw [hs]; rfl⟩
    have hlive := (hadd.order.mem m).1 (hsel m hm)
    have hk := hmon m (by rw [hm]; rfl) hlive k
    have hnone : (attachUnassignedClientsToSelectedMonitor ctx (addMonitor cfg s key info)).monOf k = none := by
      rw [monOf, hc]
      exact hnone
    rw [hnone] at hk
    split at hk
    · cases hk
    · rename_i hnot
      obtain ⟨c0, hc0⟩ : ∃ c0, s.clients.get? k = some c0 := by
        have := hkeep.present k
        rw [hc] at this
        exact isSome_iff_exists.1 this.symm
      have hc0mon : c0.mon = none := by
        have : s.monOf k = none := hk.symm
        rw [monOf, hc0] at this
        exact this
      rw [mem_attachableUnassignedClients] at hnot
      by_cases hb : k ∈ ctx.bars
      · exact .inr hb
      · refine .inl ?_
        rw [hc0]
        by_cases hp : k ∈ ctx.parked s
        · refine ⟨hp, ?_⟩
          cases hh : c0.state.isHidden with
          | false => exact hh
          | true => exact absurd ⟨c0, hc0, hc0mon, .inr hh, hb⟩ hnot
        · exact absurd ⟨c0, hc0, hc0mon, .inl hp, hb⟩ hnot

theorem unmapped_of_guard (h : ¬ s.outputMap.entries.any (·.2 == info.id) = true) (k : MonitorKey) :
    s.outputMap.get? k ≠ some info.id := by
  intro hk
  exact h (any_eq_true.2 ⟨(k, info.id), KeyMap.get?_eq_some.1 hk, beq_self_eq_true info.id⟩)

theorem hotplug_step (hop : HandsOutKey s op) (h : Plugged s) :
    Plugged (hotplug s op).1 ∧ ∀ k, ((hotplug s op).1.clients.get? k).isSome = (s.clients.get? k).isSome := by
  cases op with
  | added cfg ctx key info =>
    show Plugged (handleOutputAdded cfg ctx s key info) ∧ ∀ k, ((handleOutputAdded cfg ctx s key info).clients.get? k).isSome = _
    unfold handleOutputAdded
    split
    · exact ⟨h, fun _ => rfl⟩
    · rename_i hid
      obtain ⟨hp, hkeep, -⟩ := added_spec h cfg ctx hop (unmapped_of_guard hid)
      exact ⟨hp, hkeep⟩
  | removed ctx m =>
    obtain ⟨hp, hs⟩ := retireMonitor_keeps (s := s) ctx m (fun k hk _ => h.selLive k hk)
    exact ⟨⟨consistent_retireMonitor h.toConsistent ctx m, hs⟩, hp⟩
  | removeExcess ctx n =>
    obtain ⟨hp, hs⟩ := removeExcessLoop_keeps ctx n s.monitorOrder.length h.selLive
    exact ⟨⟨consistent_removeExcessLoop ctx n _ h.toConsistent, hs⟩, hp⟩
  | sendmon locked place ok key target =>
    obtain ⟨hc, hp, hfaces, hs⟩ := sendmon_spec h.toConsistent locked place ok key target
    refine ⟨⟨hc, fun m hm => ?_⟩, hp⟩
    have hm : (sendmon locked place ok s key target).selMon = some m := hm
    show m ∈ (sendmon locked place ok s key target).monitorOrder
    rw [hfaces.order]
    rcases hs with hsame | ⟨m', hnew, hmem⟩
    · rw [hsame] at hm
      exact h.selLive m hm
    · rw [hnew] at hm
      cases hm
      exact hmem

end Step

section Runs

variable {s : WMState}

theorem sameTags_last (h : Plugged s) (hone : s.monitorOrder.length ≤ 1)
    (hlast : (hotplug s op).1.monitorOrder = []) : SameTags s (hotplug s op).1 := by
  cases op with
  | added cfg ctx key info =>
    unfold hotplug handleOutputAdded at hlast ⊢
    simp only at hlast ⊢
    split
    · exact fun _ => rfl
    · rename_i hid
      rw [if_neg hid, (KeepsClients.attachUnassigned ctx _).order] at hlast
      have hlast : s.monitorOrder ++ [key] = [] := hlast
      exact absurd hlast (by simp)
  | removed ctx m => exact sameTags_retireMonitor ctx m hlast
  | removeExcess ctx n =>
    unfold hotplug removeExcessMonitors at hlast ⊢
    simp only at hlast ⊢
    rcases ho : s.monitorOrder with _ | ⟨m, rest⟩
    · exact fun _ => rfl
    · have hrest : rest = [] := by
        rw [ho, length_cons] at hone
        exact eq_nil_of_length_eq_zero (by omega)
      subst hrest
      rw [ho] at hlast
      simp only [length_singleton, removeExcessLoop, ho, getLast?_singleton, dropLast_singleton]
        at hlast ⊢
      split
      · exact fun _ => rfl
      · rename_i hn
        rw [if_neg hn] at hlast
        exact sameTags_retireMonitor (s := { s with monitorOrder := [] }) ctx m hlast
  | sendmon locked place ok key target =>
    obtain ⟨-, -, hfaces, -⟩ := sendmon_spec h.toConsistent locked place ok key target
    have hnone : s.monitors.get? target = none := by
      have hlast : (sendmon locked place ok s key target).monitorOrder = [] := hlast
      rw [hfaces.order] at hlast
      cases ht : s.monitors.get? target with
      | none => rfl
      | some mon =>
        have hmem := (h.order.mem target).2 ⟨_, by rw [face, ht]; rfl⟩
        rw [hlast] at hmem
        cases hmem
    unfold hotplug sendmon
    simp only [hnone]
    exact fun _ => rfl

/-- From a consistent state, over every run: the state stays consistent, no client disappears, without monitors no client has
one, and the next output takes every client but bars and parked scratchpads that are not minimized. -/
theorem hotplug_keeps_every_client (h : Plugged s) {ops : List HotplugOp} (hops : Along HandsOutKey hotplug s ops) :
    let t := after hotplug s ops
    Plugged t ∧ (∀ k, (t.clients.get? k).isSome = (s.clients.get? k).isSome) ∧
      (t.monitorOrder = [] → ∀ k, t.monOf k = none) ∧
      (∀ op, t.monitorOrder.length ≤ 1 → (hotplug t op).1.monitorOrder = [] → SameTags t (hotplug t op).1) ∧
      ∀ cfg ctx key info, t.monitors.get? key = none → (∀ k, t.outputMap.get? k ≠ some info.id) →
        ∀ k c, (hotplug t (.added cfg ctx key info)).1.clients.get? k = some c → c.mon = none →
          (k ∈ ctx.parked t ∧ (t.clients.get? k).any (·.state.isHidden) = false) ∨ k ∈ ctx.bars := by
  have run := trace_invariant_along
    (I := fun _ t => Plugged t ∧ ∀ k, (t.clients.get? k).isSome = (s.clients.get? k).isSome)
    (fun _ t op hop ⟨ht, hp⟩ => by
      obtain ⟨ht', hp'⟩ := hotplug_step hop ht
      exact ⟨ht', fun k => (hp' k).trans (hp k)⟩) ⟨h, fun _ => rfl⟩ hops
  obtain ⟨ht, hp⟩ := run
  intro t
  refine ⟨ht, hp, fun hnone k => ?_, fun op hone hlast => sameTags_last ht hone hlast, ?_⟩
  · cases hk : t.monOf k with
    | none => rfl
    | some m =>
      have hmem := (ht.order.mem m).2 (ht.live k m hk)
      have hnone : (after hotplug s ops).monitorOrder = [] := hnone
      rw [hnone] at hmem
      cases hmem
  · intro cfg ctx key info hkey hid k c hc hmon
    obtain ⟨-, -, howned⟩ := added_spec ht cfg ctx hkey hid
    have hadd : (hotplug t (.added cfg ctx key info)).1 =
        attachUnassignedClientsToSelectedMonitor ctx (addMonitor cfg t key info) := by
      refine if_neg ?_
      intro hany
      obtain ⟨⟨k', o⟩, hmem, heq⟩ := List.any_eq_true.1 hany
      exact hid k' (KeyMap.get?_eq_some.2 (by rw [← beq_iff_eq.1 heq]; exact hmem))
    rw [hadd] at hc
    exact howned k c hc hmon

end Runs

namespace Sample

def window : ClientKey := ⟨1, 1⟩

def waiting : WMClient where
  geometry := { floatingRect := ⟨0, 0, 640, 480⟩ }
  state := { tags := 1 }

/-- A window and no monitor; `selMon` is what the last removal left. -/
def darkState (selMon : Option MonitorKey) : WMState :=
  { noMonitors with clients := ⟨[(window, waiting)], by decide⟩, selMon := selMon }

theorem darkState_consistent (selMon : Option MonitorKey) : Consistent (darkState selMon) := by
  have hmon : ∀ k, (darkState selMon).monOf k = none := by
    intro k
    cases hk : (darkState selMon).clients.get? k with
    | none => rw [monOf, hk]; rfl
    | some c =>
      have hmem : (k, c) ∈ [(window, waiting)] := KeyMap.get?_eq_some.1 hk
      cases mem_singleton.1 hmem
      rw [monOf, hk]
      rfl
  refine ⟨⟨⟨fun m l hl => ?_, fun m l hl => ?_⟩, fun m l hl => ?_, fun k m hk => ?_, fun m f hf => ?_, fun m m' o ho => ?_,
    fun m mon hm => ?_⟩, ⟨nodup_nil, fun k => ?_⟩, fun m l hl => ?_⟩
  · cases hl
  · cases hl
  · cases hl
  · rw [hmon k] at hk; cases hk
  · cases hf
  · cases ho
  · cases hm
  · exact iff_of_false not_mem_nil (by rintro ⟨f, hf⟩; cases hf)
  · cases hl

/-- Two outputs come, the window is sent to the second, which goes; then all go. -/
def plugAndUnplug : List HotplugOp :=
  [.added plainConfig noClients ⟨1, 1⟩ (screenAt 1 0 1920), .added plainConfig noClients ⟨2, 1⟩ (screenAt 2 1920 1920),
    .sendmon (fun _ => false) id ⟨true, true⟩ window ⟨2, 1⟩, .removed noClients ⟨2, 1⟩, .removeExcess noClients 0]

end Sample

/-- The window is there after all outputs went, and the next one takes it. -/
theorem hotplug_keeps_sample_window :
    let t := after hotplug (Sample.darkState none) Sample.plugAndUnplug
    (t.clients.get? Sample.window).isSome = true ∧ t.monOf Sample.window = none ∧
      ∀ c, (hotplug t (.added Sample.plainConfig Sample.noClients ⟨3, 1⟩ (Sample.screenAt 3 0 1920))).1.clients.get?
        Sample.window = some c → c.mon ≠ none := by
  have hkeys : Along HandsOutKey hotplug (Sample.darkState none) Sample.plugAndUnplug :=
    ⟨KeyMap.get?_eq_none.2 (by decide +kernel), KeyMap.get?_eq_none.2 (by decide +kernel), trivial, trivial, trivial,
      trivial⟩
  obtain ⟨-, hpresent, hdark, -, howned⟩ := hotplug_keeps_every_client
    ⟨Sample.darkState_consistent none, fun m hm => by cases hm⟩ hkeys
  refine ⟨hpresent Sample.window, hdark (by decide +kernel) Sample.window, fun c hc hnone => ?_⟩
  have hempty : (after hotplug (Sample.darkState none) Sample.plugAndUnplug).outputMap.keys = [] := by decide +kernel
  have hunmapped : ∀ k, (after hotplug (Sample.darkState none) Sample.plugAndUnplug).outputMap.get? k ≠ some 3 := by
    intro k hk
    have hnone := KeyMap.get?_eq_none.2 (hempty ▸ not_mem_nil (a := k))
    rw [hnone] at hk
    cases hk
  rcases howned Sample.plainConfig Sample.noClients ⟨3, 1⟩ (Sample.screenAt 3 0 1920)
      (KeyMap.get?_eq_none.2 (by decide +kernel)) hunmapped Sample.window c hc hnone with ⟨hp, -⟩ | hb
  · exact not_mem_nil (mem_of_mem_filter hp)
  · exact not_mem_nil hb

/-- With a selected monitor that is gone, a state that is otherwise consistent has a window that the next output leaves
without a monitor. -/
theorem stale_selected_monitor_leaves_orphan :
    Consistent (Sample.darkState (some ⟨9, 1⟩)) ∧
      (hotplug (Sample.darkState (some ⟨9, 1⟩))
        (.added Sample.plainConfig Sample.noClients ⟨1, 1⟩ (Sample.screenAt 1 0 1920))).1.clients.get? Sample.window =
          some Sample.waiting ∧
      Sample.waiting.mon = none ∧ Sample.window ∉ Sample.noClients.parked (Sample.darkState (some ⟨9, 1⟩)) ∧
      Sample.window ∉ Sample.noClients.bars :=
  ⟨Sample.darkState_consistent _, by decide +kernel, rfl, by decide +kernel, by decide +kernel⟩

end Jwm
