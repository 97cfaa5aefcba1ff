/-
Clients whose monitor goes move to another one, or wait without a monitor; a new monitor takes those
that wait. Either way the state stays consistent.
-/
import Jwm.Wm.Ownership

namespace Jwm

open List Option WMState WMMonitor

/-! ## Clients on the way to another monitor -/

variable {f : List ClientKey → List ClientKey} {pending : List ClientKey} {k : ClientKey}

section Transfer

variable {s : WMState} {key : ClientKey} {source : MonitorKey} {target retired : Option MonitorKey}
  {tags : BitVec 32} {parked : List ClientKey}

theorem monOf_modifyClient (s : WMState) (key k : ClientKey) (f : WMClient → WMClient) :
    (s.modifyClient key f).monOf k = if k = key then ((s.clients.get? k).map f).bind (·.mon) else s.monOf k := by
  unfold monOf
  rw [modifyClient_get?]
  split <;> rfl

theorem isClientFloating_modifyClient {f : WMClient → WMClient} (hf : ∀ c, (f c).state.isFloating = c.state.isFloating)
    (s : WMState) (key k : ClientKey) : (s.modifyClient key f).isClientFloating k = s.isClientFloating k := by
  unfold isClientFloating
  rw [modifyClient_get?]
  split
  · cases s.clients.get? k with
    | none => rfl
    | some c => exact hf c
  · rfl

/-- Lists without repetition, of which only `source`'s may hold `key`. -/
structure OnlyIn (lists : KeyMap MonitorKey (List ClientKey)) (source : MonitorKey) (key : ClientKey) : Prop where
  nodup : ∀ m l, lists.get? m = some l → l.Nodup
  other : ∀ m l, lists.get? m = some l → m ≠ source → key ∉ l

section Lists

variable {lists : KeyMap MonitorKey (List ClientKey)} {target : MonitorKey}

theorem OnlyIn.get?_erase (h : OnlyIn lists source key) (hf : ∀ l, l.Nodup → f l = l.erase key) (m : MonitorKey) :
    (lists.modify source f).get? m = (lists.get? m).map (·.erase key) := by
  rw [KeyMap.get?_modify]
  cases hl : lists.get? m with
  | none => split <;> rfl
  | some l =>
    split
    · rw [map_some, map_some, hf l (h.nodup m l hl)]
    · rename_i hm
      rw [map_some, erase_of_not_mem (h.other m l hl hm)]

theorem get?_push {lists' : KeyMap MonitorKey (List ClientKey)} (hn : ∀ m l, lists.get? m = some l → l.Nodup)
    (h' : ∀ m, lists'.get? m = (lists.get? m).map (·.erase key)) {g : List ClientKey → List ClientKey}
    (hf : ∀ l, key ∉ l → f l = g l) (m : MonitorKey) :
    (lists'.modify target f).get? m =
      (lists.get? m).map fun l => if some target = some m then g (l.erase key) else l.erase key := by
  rw [KeyMap.get?_modify, h' m]
  cases hl : lists.get? m with
  | none => split <;> rfl
  | some l =>
    by_cases hm : m = target
    · subst hm
      simp only [if_true, map_some, hf _ (hn m l hl).not_mem_erase]
    · have hne : ¬ some target = some m := fun e => hm (some.inj e).symm
      simp only [if_neg hm, if_neg hne, map_some]

end Lists

section

variable (h : Owned s) (hk : s.monOf key = some source)
include h hk

theorem Owned.onlyIn_lists : OnlyIn s.monitorClients source key where
  nodup := h.lists.nodup
  other m l hl hm := h.not_mem_list hl (by rw [hk]; exact fun e => hm (some.inj e).symm)

theorem Owned.onlyIn_stacks : OnlyIn s.monitorStack source key where
  nodup m l hl := (h.focusStacks m l hl).1
  other m l hl hm := h.not_mem_stack hl (by rw [hk]; exact fun e => hm (some.inj e).symm)

theorem selected_clear {m : MonitorKey} {mon : WMMonitor} (hm : (s.monitors.modify source (·.clearSelectionOf key)).get? m = some mon) :
    ∀ k ∈ mon.selections, k ≠ key ∧ s.monOf k = some m := by
  intro k hsel
  rw [KeyMap.get?_modify] at hm
  split at hm
  · rename_i e
    obtain ⟨mon0, hmon0, rfl⟩ := map_eq_some_iff.1 hm
    obtain ⟨hsel, hne⟩ := mem_selections_clear hsel
    exact ⟨hne, h.selected m mon0 hmon0 k hsel⟩
  · rename_i e
    have hkm := h.selected m mon hm k hsel
    refine ⟨?_, hkm⟩
    rintro rfl
    rw [hk] at hkm
    exact e (some.inj hkm).symm

end

theorem filter_bne_eq_erase (key : ClientKey) (l : List ClientKey) (hn : l.Nodup) : l.filter (· != key) = l.erase key :=
  (hn.erase_eq_filter key).symm

theorem moves_transferClient (h : Owned s) (hk : s.monOf key = some source) :
    Moves s (transferClient source target tags retired parked s key) key
      (if retired = some key then none else target) := by
  obtain ⟨c, hc, -⟩ := bind_eq_some_iff.1 hk
  have hlists := (h.onlyIn_lists hk).get?_erase (filter_bne_eq_erase key)
  have hstacks := (h.onlyIn_stacks hk).get?_erase (filter_bne_eq_erase key)
  have hfaces := SameFaces.transferClient source target tags retired parked s key
  -- taken out, with no monitor
  have gone : ∀ {s' : WMState}, s' = ({ s with
      monitorClients := s.monitorClients.modify source (·.filter (· != key))
      monitorStack := s.monitorStack.modify source (·.filter (· != key))
      monitors := s.monitors.modify source (·.clearSelectionOf key) } : WMState).modifyClient key
        (fun client => { client with mon := none }) → SameFaces s s' → Moves s s' key none := by
    intro s' hs' hsame
    subst hs'
    refine ⟨fun k => ?_, fun k => ?_, fun m => ?_, fun m => ?_, hsame, rfl, fun m mon hm => selected_clear h hk hm⟩
    · rw [monOf_modifyClient]
      split
      · cases s.clients.get? k <;> rfl
      · rfl
    · rw [isClientFloating_modifyClient]
      · rfl
      · exact fun _ => rfl
    · exact (hlists m).trans (by simp)
    · exact (hstacks m).trans (by simp)
  unfold transferClient at hfaces ⊢
  simp only at hfaces ⊢
  by_cases hr : retired = some key
  · rw [if_pos hr] at hfaces ⊢
    rw [if_pos hr]
    exact gone rfl hfaces
  · rw [if_neg hr] at hfaces ⊢
    rw [if_neg hr]
    cases target with
    | none => exact gone rfl hfaces
    | some t =>
      refine ⟨fun k => ?_, fun k => ?_, fun m => ?_, fun m => ?_, hfaces, rfl, fun m mon hm => selected_clear h hk hm⟩
      · show (WMState.modifyClient _ key _).monOf k = _
        rw [monOf_modifyClient]
        split
        · rename_i e
          subst e
          rw [modifyClient_get?, if_pos rfl]
          rw [hc]
          rfl
        · rename_i e
          rw [monOf_modifyClient, if_neg e]
          rfl
      · show (WMState.modifyClient _ key _).isClientFloating k = _
        rw [isClientFloating_modifyClient, isClientFloating_modifyClient]
        · rfl
        · exact fun _ => rfl
        · exact fun _ => rfl
      · exact get?_push h.lists.nodup hlists (fun l hl => if_neg hl) m
      · refine get?_push (fun m l hl => (h.focusStacks m l hl).1) hstacks (fun l hl => ?_) m
        rw [filter_eq_self.2]
        intro a ha
        have : a ≠ key := fun e => hl (e ▸ ha)
        simp [this]

theorem transferClients_spec (source : MonitorKey) (target : Option MonitorKey) (tags : BitVec 32)
    (retired : Option ClientKey) (parked : List ClientKey) : ∀ {keys : List ClientKey} {s : WMState}, Owned s →
    RegroupsBut s pending → keys.Nodup → (∀ k ∈ keys, s.monOf k = some source) →
    (∀ t, target = some t → ∃ f, s.face t = some f) →
    (∀ k ∈ keys, (if retired = some k then none else target) = none ∨ k ∈ pending) →
    Owned (keys.foldl (transferClient source target tags retired parked) s) ∧
      RegroupsBut (keys.foldl (transferClient source target tags retired parked) s) pending ∧
      ∀ k, (keys.foldl (transferClient source target tags retired parked) s).monOf k =
        if k ∈ keys then if retired = some k then none else target else s.monOf k
  | [], s, h, hg, _, _, _, _ => ⟨h, hg, fun k => by simp⟩
  | key :: keys, s, h, hg, hnd, hsrc, hlive, hpend => by
    rw [nodup_cons] at hnd
    have hm : Moves s (transferClient source target tags retired parked s key) key
        (if retired = some key then none else target) := moves_transferClient h (hsrc key mem_cons_self)
    have hdest : ∀ m, (if retired = some key then none else target) = some m → ∃ f, s.face m = some f := by
      intro m hm
      split at hm
      · cases hm
      · exact hlive m hm
    have h1 := h.moves hm hdest
    have hg1 : RegroupsBut (transferClient source target tags retired parked s key) pending := by
      rcases hpend key mem_cons_self with hnone | hp
      · rw [hnone] at hm
        exact hg.leaves hm
      · exact hg.moves hm hp
    have hother : ∀ k, k ≠ key → (transferClient source target tags retired parked s key).monOf k = s.monOf k := by
      intro k hk
      rw [hm.mon k, if_neg hk]
    obtain ⟨h2, hg2, hmon⟩ := transferClients_spec source target tags retired parked h1 hg1 hnd.2
      (fun k hk => by rw [hother k (fun e => hnd.1 (e ▸ hk))]; exact hsrc k (mem_cons_of_mem _ hk))
      (fun t ht => by rw [hm.faces.face]; exact hlive t ht) (fun k hk => hpend k (mem_cons_of_mem _ hk))
    refine ⟨h2, hg2, fun k => ?_⟩
    rw [foldl_cons, hmon k]
    by_cases hk : k ∈ keys
    · rw [if_pos hk, if_pos (mem_cons_of_mem _ hk)]
    · rw [if_neg hk, hm.mon k]
      by_cases e : k = key
      · subst e
        rw [if_pos rfl, if_pos mem_cons_self]
      · rw [if_neg e, if_neg (fun hmem => (mem_cons.1 hmem).elim e hk)]

theorem mem_clientsOwnedByMonitor {m : MonitorKey} : k ∈ clientsOwnedByMonitor s m ↔ s.monOf k = some m := by
  unfold clientsOwnedByMonitor
  simp only [mem_eraseDups, mem_append, mem_filter, beq_iff_eq]
  constructor
  · rintro (⟨-, h⟩ | ⟨-, h⟩) <;> exact h
  · intro h
    obtain ⟨c, hc, -⟩ := bind_eq_some_iff.1 h
    exact .inr ⟨KeyMap.mem_keys.2 ⟨c, hc⟩, h⟩

end Transfer

/-! ## A monitor goes -/

section Retire

variable {s : WMState} {ctx : HotplugContext} {m : MonitorKey}

theorem migrationTarget_live {t : MonitorKey} (h : migrationTarget ctx s m = some t) : t ∈ s.monitorOrder ∧ t ≠ m := by
  have hmem : t ∈ s.monitorOrder.filter (· != m) := by
    rcases or_eq_some_iff.1 h with hf | ⟨-, hh⟩
    · exact mem_of_find?_eq_some hf
    · exact mem_of_head? hh
  rw [mem_filter] at hmem
  exact ⟨hmem.1, by simpa using hmem.2⟩

theorem contains_of_face {f : Int × Rect} (hf : s.face m = some f) : s.monitors.contains m = true := by
  obtain ⟨mon, hmon, -⟩ := map_eq_some_iff.1 hf
  rw [KeyMap.contains, hmon]
  rfl

theorem monOf_foldl_migrate (ctx : HotplugContext) : ∀ (keys : List ClientKey) (s : WMState) (k : ClientKey),
    (keys.foldl (migrateClient ctx) s).monOf k = s.monOf k
  | [], _, _ => rfl
  | key :: keys, s, k => by
    rw [foldl_cons, monOf_foldl_migrate ctx keys]
    unfold migrateClient
    rw [reorder_frame]
    show (s.modifyClient key _).monOf k = s.monOf k
    rw [monOf_modifyClient]
    split
    · unfold monOf
      cases s.clients.get? k <;> rfl
    · rfl

/-- The order lists the live monitors, `m` apart: `remove_excess_monitors` takes it off first. -/
structure OrderedBut (s : WMState) (m : MonitorKey) : Prop where
  nodup : s.monitorOrder.Nodup
  mem : ∀ k, k ≠ m → (k ∈ s.monitorOrder ↔ ∃ f, s.face k = some f)

/-- The clients of a monitor move out; the lists are in order again, and none names the monitor. -/
theorem moveClientsToFirstMonitor_spec (h : Owned s) (hall : RegroupsBut s []) (ho : OrderedBut s m)
    (ctx : HotplugContext) :
    Owned (moveClientsToFirstMonitor ctx s m) ∧ RegroupsBut (moveClientsToFirstMonitor ctx s m) [] ∧
      ∀ k, (moveClientsToFirstMonitor ctx s m).monOf k =
        if s.monOf k = some m then if ctx.retired m = some k then none else migrationTarget ctx s m else s.monOf k := by
  have hfilter : (migrationTarget ctx s m).filter s.monitors.contains = migrationTarget ctx s m := by
    cases ht : migrationTarget ctx s m with
    | none => rfl
    | some t =>
      obtain ⟨hmem, hne⟩ := migrationTarget_live ht
      obtain ⟨f, hf⟩ := (ho.mem t hne).1 hmem
      rw [filter_some, if_pos (contains_of_face hf)]
  have hnd : (clientsOwnedByMonitor s m).Nodup := nodup_eraseDups _
  unfold moveClientsToFirstMonitor transferOrOrphanMonitorClients
  simp only [hfilter]
  generalize (((migrationTarget ctx s m).bind s.monitors.get?).map (·.activeTags)).getD 1 = tags
  cases ht : migrationTarget ctx s m with
  | none =>
    simp only
    obtain ⟨h1, hg1, hmon⟩ := transferClients_spec m none tags (ctx.retired m) (ctx.parked s) h hall hnd
      (fun k hk => mem_clientsOwnedByMonitor.1 hk) (fun t ht => by cases ht) (fun k _ => .inl (by split <;> rfl))
    refine ⟨h1, hg1, fun k => ?_⟩
    rw [hmon k]
    simp only [mem_clientsOwnedByMonitor]
  | some t =>
    simp only
    have hlive : ∀ t', some t = some t' → ∃ f, s.face t' = some f := by
      rintro t' ⟨rfl⟩
      obtain ⟨hmem, hne⟩ := migrationTarget_live ht
      exact (ho.mem t hne).1 hmem
    generalize hr : ((clientsOwnedByMonitor s m).filter fun key => ctx.retired m != some key) = reassigned
    have hpend : ∀ k ∈ clientsOwnedByMonitor s m,
        (if ctx.retired m = some k then none else some t) = none ∨ k ∈ reassigned := by
      intro k hk
      split
      · exact .inl rfl
      · rename_i hne
        refine .inr ?_
        rw [← hr, mem_filter]
        exact ⟨hk, by simpa using hne⟩
    obtain ⟨h1, hg1, hmon⟩ := transferClients_spec m (some t) tags (ctx.retired m) (ctx.parked s) h
      (fun m l hl => (groupedBut_nil.1 (hall m l hl)).but reassigned) hnd (fun k hk => mem_clientsOwnedByMonitor.1 hk)
      hlive hpend
    rw [← append_nil reassigned] at hg1
    obtain ⟨h2, hg2⟩ := migrateClients ctx h1 hg1
    refine ⟨h2, hg2, fun k => ?_⟩
    rw [monOf_foldl_migrate, hmon k]
    simp only [mem_clientsOwnedByMonitor]

theorem consistent_removeMonitorState (h : Owned s) (hg : RegroupsBut s []) (ho : OrderedBut s m)
    (hm : ∀ k, s.monOf k ≠ some m) : Consistent (removeMonitorState s m) := by
  have get_remove : ∀ {α : Type} (map : KeyMap MonitorKey α) {k : MonitorKey} {v : α},
      (map.remove m).get? k = some v → map.get? k = some v := by
    intro α map k v hv
    rw [KeyMap.get?_remove] at hv
    split at hv
    · cases hv
    · exact hv
  refine ⟨⟨⟨?_, ?_⟩, ?_, ?_, ?_, ?_, ?_⟩, ⟨?_, ?_⟩, ?_⟩
  · intro m' l hl
    exact h.lists.nodup m' l (get_remove _ hl)
  · intro m' l hl
    exact h.lists.mem m' l (get_remove _ hl)
  · intro m' l hl
    exact h.focusStacks m' l (get_remove _ hl)
  · intro k m' hk
    have hk : s.monOf k = some m' := hk
    rw [face_removeMonitorState, if_neg (show m' ≠ m from fun e => hm k (e ▸ hk))]
    exact h.live k m' hk
  · intro m' f hf
    rw [face_removeMonitorState] at hf
    split at hf
    · cases hf
    · rename_i hne
      obtain ⟨⟨l, hl⟩, l', hl'⟩ := h.kept m' f hf
      refine ⟨⟨l, ?_⟩, l', ?_⟩
      · show (s.monitorClients.remove m).get? m' = some l
        rw [KeyMap.get?_remove, if_neg hne, hl]
      · show (s.monitorStack.remove m).get? m' = some l'
        rw [KeyMap.get?_remove, if_neg hne, hl']
  · intro a b o ha hb
    exact h.outputs a b o (get_remove _ ha) (get_remove _ hb)
  · intro m' mon hmon
    exact h.selected m' mon (get_remove _ hmon)
  · exact ho.nodup.filter _
  · intro k
    rw [face_removeMonitorState]
    show k ∈ s.monitorOrder.filter (· != m) ↔ _
    rw [mem_filter]
    by_cases hk : k = m
    · simp [hk]
    · rw [ho.mem k hk, if_neg hk]
      simp [hk]
  · intro m' l hl
    exact groupedBut_nil.1 (hg m' l (get_remove _ hl))

theorem consistent_retire (h : Owned s) (hg : RegroupsBut s []) (ho : OrderedBut s m) (ctx : HotplugContext) :
    Consistent (retireMonitor ctx s m) := by
  obtain ⟨h1, hg1, hmon⟩ := moveClientsToFirstMonitor_spec h hg ho ctx
  have hsame := SameFaces.moveClientsToFirstMonitor ctx s m
  have ho1 : OrderedBut (moveClientsToFirstMonitor ctx s m) m := by
    refine ⟨by rw [hsame.order]; exact ho.nodup, fun k hk => ?_⟩
    rw [hsame.order, hsame.face]
    exact ho.mem k hk
  refine consistent_removeMonitorState h1 hg1 ho1 fun k hk => ?_
  rw [hmon k] at hk
  split at hk
  · split at hk
    · cases hk
    · exact (migrationTarget_live hk).2 rfl
  · rename_i hne
    exact hne hk

theorem Consistent.regroups (h : Consistent s) : RegroupsBut s [] := fun m l hl => groupedBut_nil.2 (h.grouped m l hl)

theorem consistent_retireMonitor (h : Consistent s) (ctx : HotplugContext) (m : MonitorKey) :
    Consistent (retireMonitor ctx s m) :=
  consistent_retire h.toOwned h.regroups ⟨h.order.nodup, fun k _ => h.order.mem k⟩ ctx

theorem consistent_removeExcessLoop (ctx : HotplugContext) (n : Nat) : ∀ (fuel : Nat) {s : WMState}, Consistent s →
    Consistent (removeExcessLoop ctx n fuel s)
  | 0, _, h => h
  | fuel + 1, s, h => by
    unfold removeExcessLoop
    split
    · exact h
    · rcases eq_nil_or_concat s.monitorOrder with he | ⟨front, m, ho⟩
      · simp only [he, getLast?_nil]
        exact h
      · rw [concat_eq_append] at ho
        have hl : s.monitorOrder.getLast? = some m := by rw [ho]; simp
        have hd : s.monitorOrder.dropLast = front := by rw [ho]; simp
        rw [hl, hd]
        have hfront : front.Nodup := (ho ▸ h.order.nodup).sublist (sublist_append_left _ _)
        have hpop : OrderedBut { s with monitorOrder := front } m := by
          refine ⟨hfront, fun k hk => ?_⟩
          have hmem := h.order.mem k
          rw [ho, mem_append, mem_singleton] at hmem
          exact ⟨fun hf => hmem.1 (.inl hf), fun hf => (hmem.2 hf).resolve_right hk⟩
        have howned : Owned { s with monitorOrder := front } :=
          ⟨⟨h.lists.nodup, h.lists.mem⟩, h.focusStacks, h.live, h.kept, h.outputs, h.selected⟩
        exact consistent_removeExcessLoop ctx n fuel (consistent_retire howned h.regroups hpop ctx)

end Retire

/-! ## A monitor comes -/

section Add

variable {s : WMState} {key : ClientKey} {m : MonitorKey}

theorem seedTag_sel (p : Pertag) (tag : Nat) (entry : LayoutTagConfig) : (p.seedTag tag entry).sel = p.sel := by
  unfold Pertag.seedTag
  split <;> rfl

theorem createmonNumbered_selections (cfg : MonitorConfig) (num : Int) (connector : Option String) :
    (createmonNumbered cfg num connector).selections = [] := by
  have seeded : ∀ {seed : Pertag → Nat → Pertag}, (∀ p tag, (seed p tag).sel = p.sel) →
      ∀ (tags : List Nat) (p : Pertag), (tags.foldl seed p).sel = p.sel := by
    intro seed hseed tags
    induction tags with
    | nil => intro p; rfl
    | cons tag tags ih =>
      intro p
      rw [foldl_cons, ih, hseed]
  have empty : ∀ {m : WMMonitor} {p : Pertag} {n : Nat}, m.sel = none → m.pertag = some p →
      p.sel = replicate n none → m.selections = [] := by
    intro m p n hs hp hsel
    unfold selections
    rw [hs, hp, map_some, getD_some, hsel]
    simp
  have reload : ∀ {m : WMMonitor} {p : Pertag} {n : Nat}, m.sel = none → m.pertag = some p →
      p.sel = replicate n none → m.reloadCurrentTagContext.selections = [] := by
    intro m p n hs hp hsel
    unfold reloadCurrentTagContext applyPertagContext
    simp only [hp]
    exact empty hs rfl hsel
  unfold createmonNumbered seedPertagFromConfig
  simp only
  split
  · exact empty rfl rfl rfl
  · refine reload rfl rfl (seeded (fun p tag => ?_) _ _)
    split
    · rfl
    · exact seedTag_sel p tag _

theorem consistent_addMonitor (h : Consistent s) (cfg : MonitorConfig) {info : OutputInfo} (hk : s.monitors.get? m = none)
    (hid : ∀ k, s.outputMap.get? k ≠ some info.id) : Consistent (addMonitor cfg s m info) := by
  have hface : s.face m = none := by rw [face, hk]; rfl
  have hfree : ∀ k, s.monOf k ≠ some m := by
    intro k hkm
    obtain ⟨f, hf⟩ := h.live k m hkm
    rw [hface] at hf
    cases hf
  have hold : ∀ {k f}, s.face k = some f → k ≠ m := by
    rintro k f hf rfl
    rw [hface] at hf
    cases hf
  have get_insert : ∀ {α : Type} (map : KeyMap MonitorKey (List α)) {k : MonitorKey} {l : List α},
      (map.insert m []).get? k = some l → (k = m ∧ l = []) ∨ map.get? k = some l := by
    intro α map k l hl
    rw [KeyMap.get?_insert] at hl
    split at hl
    · rename_i e
      cases hl
      exact .inl ⟨e, rfl⟩
    · exact .inr hl
  have hord := ordered_insertMonitor h.order hface
    ((createmonNumbered cfg (lowestUnusedMonitorNum (s.monitors.entries.map (·.2.num))) info.seedKey).setRect
      info.rect)
  refine ⟨⟨⟨?_, ?_⟩, ?_, ?_, ?_, ?_, ?_⟩, ⟨hord.nodup, hord.mem⟩, ?_⟩
  · intro m' l hl
    rcases get_insert _ hl with ⟨-, rfl⟩ | hl
    · exact nodup_nil
    · exact h.lists.nodup m' l hl
  · intro m' l hl k
    rcases get_insert _ hl with ⟨rfl, rfl⟩ | hl
    · exact iff_of_false not_mem_nil fun hkm => hfree k hkm.2
    · exact h.lists.mem m' l hl k
  · intro m' l hl
    rcases get_insert _ hl with ⟨rfl, rfl⟩ | hl
    · exact ⟨nodup_nil, fun k => iff_of_false not_mem_nil (hfree k)⟩
    · exact h.focusStacks m' l hl
  · intro k m' hkm
    obtain ⟨f, hf⟩ := h.live k m' hkm
    refine ⟨f, ?_⟩
    show (insertMonitor s m _).face m' = some f
    rw [face_insertMonitor, if_neg (hold hf), hf]
  · intro m' f hf
    by_cases e : m' = m
    · subst e
      exact ⟨⟨[], by show (s.monitorClients.insert m' []).get? m' = _; rw [KeyMap.get?_insert, if_pos rfl]⟩,
        [], by show (s.monitorStack.insert m' []).get? m' = _; rw [KeyMap.get?_insert, if_pos rfl]⟩
    · have hf : (insertMonitor s m _).face m' = some f := hf
      rw [face_insertMonitor, if_neg e] at hf
      obtain ⟨⟨l, hl⟩, l', hl'⟩ := h.kept m' f hf
      exact ⟨⟨l, by show (s.monitorClients.insert m []).get? m' = _; rw [KeyMap.get?_insert, if_neg e, hl]⟩,
        l', by show (s.monitorStack.insert m []).get? m' = _; rw [KeyMap.get?_insert, if_neg e, hl']⟩
  · intro a b o ha hb
    have ha : (s.outputMap.insert m info.id).get? a = some o := ha
    have hb : (s.outputMap.insert m info.id).get? b = some o := hb
    rw [KeyMap.get?_insert] at ha hb
    split at ha <;> split at hb
    · rename_i ea eb; rw [ea, eb]
    · cases ha; exact absurd hb (hid b)
    · cases hb; exact absurd ha (hid a)
    · exact h.outputs a b o ha hb
  · intro m' mon hmon k hsel
    have hmon : (s.monitors.insert m _).get? m' = some mon := hmon
    rw [KeyMap.get?_insert] at hmon
    split at hmon
    · cases hmon
      have hsel : k ∈ (createmonNumbered cfg _ info.seedKey).selections := hsel
      rw [createmonNumbered_selections] at hsel
      cases hsel
    · exact h.selected m' mon hmon k hsel
  · intro m' l hl
    rcases get_insert _ hl with ⟨-, rfl⟩ | hl
    · exact List.Pairwise.nil
    · exact h.grouped m' l hl

theorem moves_attachClientTo (h : Owned s) {c : WMClient} (hc : s.clients.get? key = some c) (hmon : c.mon = none)
    (tags : BitVec 32) (preserve : List ClientKey) : Moves s (attachClientTo m tags preserve s key) key (some m) := by
  have hkey : s.monOf key = none := by rw [monOf, hc]; exact hmon
  have hne : ∀ m', s.monOf key ≠ some m' := fun m' e => by rw [hkey] at e; cases e
  have hlists : ∀ m', s.monitorClients.get? m' = (s.monitorClients.get? m').map (·.erase key) := by
    intro m'
    cases hl : s.monitorClients.get? m' with
    | none => rfl
    | some l => rw [map_some, erase_of_not_mem (h.not_mem_list hl (hne m'))]
  have hstacks : ∀ m', s.monitorStack.get? m' = (s.monitorStack.get? m').map (·.erase key) := by
    intro m'
    cases hl : s.monitorStack.get? m' with
    | none => rfl
    | some l => rw [map_some, erase_of_not_mem (h.not_mem_stack hl (hne m'))]
  unfold attachClientTo
  simp only [hc]
  rw [if_neg (by rw [hmon]; exact Bool.false_ne_true)]
  refine ⟨fun k => ?_, fun k => ?_, fun m' => ?_, fun m' => ?_, .of_monitors rfl rfl, rfl, fun m' mon hm k hsel => ?_⟩
  · show (s.modifyClient key _).monOf k = _
    rw [monOf_modifyClient]
    split
    · rename_i e
      rw [e, hc]
      rfl
    · rfl
  · show (s.modifyClient key _).isClientFloating k = _
    rw [isClientFloating_modifyClient]
    exact fun _ => rfl
  · exact get?_push h.lists.nodup hlists (fun l hl => if_neg hl) m'
  · refine get?_push (fun m l hl => (h.focusStacks m l hl).1) hstacks (fun l hl => ?_) m'
    rw [filter_eq_self.2]
    intro a ha
    have : a ≠ key := fun e => hl (e ▸ ha)
    simp [this]
  · have hkm := h.selected m' mon hm k hsel
    refine ⟨?_, hkm⟩
    rintro rfl
    exact hne m' hkm

theorem attachClients_spec (tags : BitVec 32) (preserve : List ClientKey) :
    ∀ {keys : List ClientKey} {s : WMState}, Owned s → RegroupsBut s pending → keys.Nodup →
    (∀ k ∈ keys, ∃ c, s.clients.get? k = some c ∧ c.mon = none) → (∀ k ∈ keys, k ∈ pending) →
    (∃ f, s.face m = some f) →
    Owned (keys.foldl (attachClientTo m tags preserve) s) ∧
      RegroupsBut (keys.foldl (attachClientTo m tags preserve) s) pending ∧
      ∀ k, (keys.foldl (attachClientTo m tags preserve) s).monOf k = if k ∈ keys then some m else s.monOf k
  | [], s, h, hg, _, _, _, _ => ⟨h, hg, fun k => by simp⟩
  | key :: keys, s, h, hg, hnd, hfree, hpend, hlive => by
    rw [nodup_cons] at hnd
    obtain ⟨c, hc, hmon⟩ := hfree key mem_cons_self
    have hm : Moves s (attachClientTo m tags preserve s key) key (some m) := moves_attachClientTo h hc hmon tags preserve
    have h1 := h.moves hm (fun m' e => by cases e; exact hlive)
    have hg1 := hg.moves hm (hpend key mem_cons_self)
    have hfree1 : ∀ k ∈ keys, ∃ c, (attachClientTo m tags preserve s key).clients.get? k = some c ∧ c.mon = none := by
      intro k hk
      obtain ⟨c', hc', hmon'⟩ := hfree k (mem_cons_of_mem _ hk)
      refine ⟨c', ?_, hmon'⟩
      unfold attachClientTo
      simp only [hc]
      rw [if_neg (by rw [hmon]; exact Bool.false_ne_true)]
      rw [modifyClient_get?, if_neg (show k ≠ key from fun e => hnd.1 (e ▸ hk)), hc']
    obtain ⟨h2, hg2, hmon2⟩ := attachClients_spec tags preserve h1 hg1 hnd.2 hfree1
      (fun k hk => hpend k (mem_cons_of_mem _ hk)) (by rw [hm.faces.face]; exact hlive)
    refine ⟨h2, hg2, fun k => ?_⟩
    rw [foldl_cons, hmon2 k]
    by_cases hk : k ∈ keys
    · rw [if_pos hk, if_pos (mem_cons_of_mem _ hk)]
    · rw [if_neg hk, hm.mon k]
      by_cases e : k = key
      · subst e
        rw [if_pos rfl, if_pos mem_cons_self]
      · rw [if_neg e, if_neg (fun hmem => (mem_cons.1 hmem).elim e hk)]

theorem mem_attachableUnassignedClients {parked bars : List ClientKey} :
    k ∈ attachableUnassignedClients s parked bars ↔ ∃ c, s.clients.get? k = some c ∧ c.mon = none ∧
      (k ∉ parked ∨ c.state.isHidden = true) ∧ k ∉ bars := by
  unfold attachableUnassignedClients
  simp only [mem_eraseDups, mem_filter, mem_append, Option.any_eq_true, Bool.and_eq_true,
    Bool.or_eq_true, Bool.not_eq_true', contains_eq_mem, decide_eq_false_iff_not, isNone_iff_eq_none]
  constructor
  · rintro ⟨-, c, hc, ⟨hmon, hp⟩, hb⟩
    exact ⟨c, hc, hmon, hp, hb⟩
  · rintro ⟨c, hc, hmon, hp, hb⟩
    exact ⟨.inr (KeyMap.mem_keys.2 ⟨c, hc⟩), c, hc, ⟨hmon, hp⟩, hb⟩

/-- Orphans find the selected monitor, if it is a live one; otherwise nothing happens. -/
theorem attachUnassigned_spec (h : Consistent s) (ctx : HotplugContext) :
    Consistent (attachUnassignedClientsToSelectedMonitor ctx s) ∧
      (∀ m, s.selMon.or s.monitorOrder.head? = some m → (∃ f, s.face m = some f) →
        ∀ k, (attachUnassignedClientsToSelectedMonitor ctx s).monOf k =
          if k ∈ attachableUnassignedClients s (ctx.parked s) ctx.bars then some m else s.monOf k) := by
  unfold attachUnassignedClientsToSelectedMonitor
  cases hm : s.selMon.or s.monitorOrder.head? with
  | none => exact ⟨h, fun m e => by cases e⟩
  | some m =>
    simp only
    unfold attachClientsToMonitor
    cases hmon : s.monitors.get? m with
    | none =>
      refine ⟨h, ?_⟩
      rintro m' ⟨rfl⟩ ⟨f, hf⟩
      rw [face, hmon] at hf
      cases hf
    | some mon =>
      simp only
      generalize hkeys : attachableUnassignedClients s (ctx.parked s) ctx.bars = keys
      have hfree : ∀ k ∈ keys, ∃ c, s.clients.get? k = some c ∧ c.mon = none := by
        intro k hk
        rw [← hkeys, mem_attachableUnassignedClients] at hk
        obtain ⟨c, hc, hcm, -⟩ := hk
        exact ⟨c, hc, hcm⟩
      have hnd : keys.Nodup := by rw [← hkeys]; exact nodup_eraseDups _
      generalize hatt : (keys.filter fun key => (s.clients.get? key).any (·.mon.isNone)).eraseDups = attached
      have hsub : ∀ k ∈ keys, k ∈ attached := by
        intro k hk
        obtain ⟨c, hc, hcm⟩ := hfree k hk
        rw [← hatt, mem_eraseDups, mem_filter, hc]
        exact ⟨hk, by simp [hcm]⟩
      obtain ⟨h1, hg1, hmon1⟩ := attachClients_spec mon.activeTags (ctx.parked s) h.toOwned
        (fun m l hl => (h.grouped m l hl).but attached) hnd hfree hsub ⟨_, by rw [face, hmon]; rfl⟩
      have hfaces : SameFaces s (keys.foldl (attachClientTo m mon.activeTags (ctx.parked s)) s) := by
        refine .foldl (fun s k => ?_) keys s
        unfold attachClientTo
        split
        · exact .refl s
        · split
          · exact .refl s
          · exact .of_monitors rfl rfl
      have hfaces2 := hfaces.trans
        (.foldl (f := migrateClient ctx) (fun s k => (SameFaces.modifyClient s k _).trans (.reorder _ k)) attached _)
      rw [← append_nil attached] at hg1
      obtain ⟨h2, hg2⟩ := migrateClients ctx h1 hg1
      refine ⟨⟨h2, hfaces2.ordered h.order, fun m l hl => groupedBut_nil.1 (hg2 m l hl)⟩, ?_⟩
      rintro m' ⟨rfl⟩ - k
      rw [monOf_foldl_migrate, hmon1 k]

end Add

end Jwm
