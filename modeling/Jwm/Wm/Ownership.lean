/-
Which monitor owns which client. A client that names a live monitor stands once in its client list
and once in its focus stack; one that names none stands nowhere; selections name clients of their own
monitor. The ways a client changes hands keep this, up to its place among the tiled and the floating.
-/
import Jwm.Wm.ListInvariant
import Jwm.Wm.MonitorFaces
import Jwm.Wm.Sendmon

namespace Jwm

open List Option WMState

/-- The clients a monitor remembers as selected, now and for each tag. -/
def WMMonitor.selections (m : WMMonitor) : List ClientKey :=
  m.sel.toList ++ (m.pertag.map fun p => p.sel.filterMap id).getD []

/-- Clients, lists, stacks and selections agree on who owns whom. -/
structure Owned (s : WMState) : Prop where
  lists : Listed s Set.univ
  focusStacks : ∀ m l, s.monitorStack.get? m = some l → l.Nodup ∧ ∀ k, k ∈ l ↔ s.monOf k = some m
  live : ∀ k m, s.monOf k = some m → ∃ f, s.face m = some f
  kept : ∀ m f, s.face m = some f → (∃ l, s.monitorClients.get? m = some l) ∧ ∃ l, s.monitorStack.get? m = some l
  outputs : ∀ m m' o, s.outputMap.get? m = some o → s.outputMap.get? m' = some o → m = m'
  selected : ∀ m mon, s.monitors.get? m = some mon → ∀ k ∈ mon.selections, s.monOf k = some m

/-- Every list is tiled clients, then floating ones, those in `pending` apart. -/
def RegroupsBut (s : WMState) (pending : List ClientKey) : Prop :=
  ∀ m l, s.monitorClients.get? m = some l → GroupedBut s.isClientFloating pending l

/-- A consistent state: the order lists the live monitors too, and every list is tiled clients, then
floating ones. -/
structure Consistent (s : WMState) : Prop extends Owned s where
  order : s.Ordered
  grouped : ∀ m l, s.monitorClients.get? m = some l → Grouped s.isClientFloating l

section Selections

variable {m : WMMonitor} {k key : ClientKey}

theorem mem_selections : k ∈ m.selections ↔ m.sel = some k ∨ ∃ p, m.pertag = some p ∧ some k ∈ p.sel := by
  unfold WMMonitor.selections
  rw [mem_append, mem_toList]
  cases hp : m.pertag with
  | none => simp
  | some p => simp [mem_filterMap]

theorem mem_selections_clear : k ∈ (m.clearSelectionOf key).selections → k ∈ m.selections ∧ k ≠ key := by
  rw [mem_selections, mem_selections]
  rintro (hs | ⟨p, hp, hk⟩)
  · unfold WMMonitor.clearSelectionOf at hs
    simp only at hs
    split at hs
    · cases hs
    · rename_i hne
      exact ⟨.inl hs, fun e => hne (e ▸ hs)⟩
  · obtain ⟨p', hp', rfl⟩ := map_eq_some_iff.1 hp
    obtain ⟨slot, hslot, e⟩ := List.mem_map.1 hk
    split at e
    · cases e
    · rename_i hne
      subst e
      refine ⟨.inr ⟨p', hp', hslot⟩, fun e => hne (by rw [e])⟩

end Selections

/-! ## A client changes hands -/

/-- `key` leaves every list and stack, and is pushed to those of `dest`. -/
structure Moves (s s' : WMState) (key : ClientKey) (dest : Option MonitorKey) : Prop where
  mon : ∀ k, s'.monOf k = if k = key then dest else s.monOf k
  floating : ∀ k, s'.isClientFloating k = s.isClientFloating k
  lists : ∀ m, s'.monitorClients.get? m =
    (s.monitorClients.get? m).map fun l => if dest = some m then l.erase key ++ [key] else l.erase key
  focusStacks : ∀ m, s'.monitorStack.get? m =
    (s.monitorStack.get? m).map fun l => if dest = some m then key :: l.erase key else l.erase key
  faces : SameFaces s s'
  outputs : s'.outputMap = s.outputMap
  selected : ∀ m mon, s'.monitors.get? m = some mon → ∀ k ∈ mon.selections, k ≠ key ∧ s.monOf k = some m

variable {l : List ClientKey} {f : WMClient → WMClient}

section Move

variable {s s' : WMState} {key : ClientKey} {dest : Option MonitorKey} {pending : List ClientKey}

theorem Owned.not_mem_list (h : Owned s) {m : MonitorKey} (hl : s.monitorClients.get? m = some l)
    (hm : s.monOf key ≠ some m) : key ∉ l :=
  h.lists.not_mem hl hm

theorem Owned.not_mem_stack (h : Owned s) {m : MonitorKey} (hl : s.monitorStack.get? m = some l)
    (hm : s.monOf key ≠ some m) : key ∉ l :=
  fun hk => hm (((h.focusStacks m l hl).2 key).1 hk)

theorem Owned.moves (h : Owned s) (hm : Moves s s' key dest) (hd : ∀ m, dest = some m → ∃ f, s.face m = some f) :
    Owned s' := by
  have mem_of : ∀ {m k} {l : List ClientKey}, l.Nodup → (k ∈ l ↔ s.monOf k = some m) →
      (k ∈ (if dest = some m then l.erase key ++ [key] else l.erase key) ↔ s'.monOf k = some m) := by
    intro m k l hn hk
    rw [hm.mon k]
    by_cases hkk : k = key
    · subst hkk
      rw [if_pos rfl]
      split
      · rename_i hdm; simp [hdm]
      · rename_i hdm; exact iff_of_false hn.not_mem_erase hdm
    · rw [if_neg hkk, ← hk]
      split
      · rw [mem_append, mem_singleton, hn.mem_erase_iff]
        simp [hkk]
      · rw [hn.mem_erase_iff]
        simp [hkk]
  refine ⟨⟨?_, ?_⟩, ?_, ?_, ?_, ?_, ?_⟩
  · intro m l hl
    rw [hm.lists m] at hl
    obtain ⟨l0, hl0, rfl⟩ := map_eq_some_iff.1 hl
    have hn := h.lists.nodup m l0 hl0
    split
    · refine nodup_append.2 ⟨hn.erase key, nodup_singleton key, ?_⟩
      rintro a ha b hb rfl
      exact hn.not_mem_erase (mem_singleton.1 hb ▸ ha)
    · exact hn.erase key
  · intro m l hl k
    rw [hm.lists m] at hl
    obtain ⟨l0, hl0, rfl⟩ := map_eq_some_iff.1 hl
    have h0 : k ∈ l0 ↔ s.monOf k = some m := by
      rw [h.lists.mem m l0 hl0 k]
      exact and_iff_right (Set.mem_univ k)
    rw [mem_of (h.lists.nodup m l0 hl0) h0]
    exact (and_iff_right (Set.mem_univ k)).symm
  · intro m l hl
    rw [hm.focusStacks m] at hl
    obtain ⟨l0, hl0, rfl⟩ := map_eq_some_iff.1 hl
    obtain ⟨hn, hmem⟩ := h.focusStacks m l0 hl0
    refine ⟨?_, fun k => ?_⟩
    · split
      · exact nodup_cons.2 ⟨hn.not_mem_erase, hn.erase key⟩
      · exact hn.erase key
    · rw [← mem_of hn (hmem k)]
      split
      · rw [mem_append, mem_cons, mem_singleton, or_comm]
      · exact Iff.rfl
  · intro k m hk
    rw [hm.faces.face]
    rw [hm.mon k] at hk
    split at hk
    · exact hd m hk
    · exact h.live k m hk
  · intro m f hf
    rw [hm.faces.face] at hf
    obtain ⟨⟨l, hl⟩, l', hl'⟩ := h.kept m f hf
    rw [hm.lists m, hm.focusStacks m, hl, hl']
    exact ⟨⟨_, rfl⟩, _, rfl⟩
  · rw [hm.outputs]
    exact h.outputs
  · intro m mon hmon k hk
    obtain ⟨hne, hk⟩ := hm.selected m mon hmon k hk
    rw [hm.mon k, if_neg hne]
    exact hk

theorem RegroupsBut.moves (h : RegroupsBut s pending) (hm : Moves s s' key dest) (hk : key ∈ pending) :
    RegroupsBut s' pending := by
  intro m l hl
  rw [hm.lists m] at hl
  obtain ⟨l0, hl0, rfl⟩ := map_eq_some_iff.1 hl
  rw [funext hm.floating]
  have herase : GroupedBut s.isClientFloating pending (l0.erase key) := (h m l0 hl0).sublist erase_sublist
  split
  · exact herase.push hk
  · exact herase

theorem RegroupsBut.leaves (h : RegroupsBut s pending) (hm : Moves s s' key none) : RegroupsBut s' pending := by
  intro m l hl
  rw [hm.lists m] at hl
  obtain ⟨l0, hl0, rfl⟩ := map_eq_some_iff.1 hl
  rw [funext hm.floating, if_neg (some_ne_none m ∘ Eq.symm)]
  exact (h m l0 hl0).sublist erase_sublist

end Move

/-! ## Regrouping -/

section Regroup

variable {s : WMState} {key : ClientKey} {pending : List ClientKey}

theorem reorder_frame (s : WMState) (key : ClientKey) : reorderClientInMonitorGroups s key =
      { s with monitorClients := (reorderClientInMonitorGroups s key).monitorClients } := by
  unfold reorderClientInMonitorGroups
  repeat' split
  all_goals rfl

theorem reorder_lists (h : Owned s) (key : ClientKey) (m : MonitorKey) :
    (reorderClientInMonitorGroups s key).monitorClients.get? m =
      (s.monitorClients.get? m).map fun l => if s.monOf key = some m then regroup s.isClientFloating l key else l := by
  cases hmon : s.monOf key with
  | none =>
    rw [reorder_absent fun m hk => by rw [hmon] at hk; cases hk]
    have hne : ¬ (none : Option MonitorKey) = some m := fun e => by cases e
    simp only [if_neg hne, Option.map_id']
  | some mon =>
    obtain ⟨client, hc, hcm⟩ := bind_eq_some_iff.1 hmon
    obtain ⟨f, hface⟩ := h.live key mon hmon
    obtain ⟨⟨l, hl⟩, -⟩ := h.kept mon f hface
    have hk : key ∈ l := (h.lists.mem mon l hl key).2 ⟨Set.mem_univ key, hmon⟩
    have hf : client.state.isFloating = s.isClientFloating key := by
      rw [isClientFloating, hc]; rfl
    rw [reorder_eq hc hcm hl hk, setList_lists hl, hf]
    by_cases hmm : m = mon
    · subst hmm
      rw [if_pos rfl, hl, map_some, if_pos rfl]
      rfl
    · have hne : ¬ some mon = some m := fun e => hmm (some.inj e).symm
      rw [if_neg hmm]
      simp only [if_neg hne, Option.map_id']

theorem Owned.reorder (h : Owned s) (key : ClientKey) : Owned (reorderClientInMonitorGroups s key) := by
  have hlists := reorder_lists h key
  have hframe := reorder_frame s key
  generalize reorderClientInMonitorGroups s key = s' at hlists hframe
  have perm : ∀ m l, s'.monitorClients.get? m = some l → ∃ l0, s.monitorClients.get? m = some l0 ∧ l.Perm l0 := by
    intro m l hl
    rw [hlists m] at hl
    obtain ⟨l0, hl0, rfl⟩ := map_eq_some_iff.1 hl
    refine ⟨l0, hl0, ?_⟩
    split
    · rename_i hm
      exact regroup_perm _ ((h.lists.mem m l0 hl0 key).2 ⟨Set.mem_univ key, hm⟩)
    · exact .refl l0
  have hmon : ∀ k, s'.monOf k = s.monOf k := fun k => by rw [hframe]; rfl
  refine ⟨⟨?_, ?_⟩, ?_, ?_, ?_, ?_, ?_⟩
  · intro m l hl
    obtain ⟨l0, hl0, hp⟩ := perm m l hl
    exact hp.nodup_iff.2 (h.lists.nodup m l0 hl0)
  · intro m l hl k
    obtain ⟨l0, hl0, hp⟩ := perm m l hl
    rw [hp.mem_iff, hmon k]
    exact h.lists.mem m l0 hl0 k
  · rw [hframe]
    exact h.focusStacks
  · intro k m hk
    rw [hmon k] at hk
    rw [hframe]
    exact h.live k m hk
  · intro m f hf
    rw [hframe] at hf
    obtain ⟨⟨l, hl⟩, hs⟩ := h.kept m f hf
    refine ⟨⟨_, by rw [hlists m, hl]; rfl⟩, ?_⟩
    rw [hframe]
    exact hs
  · rw [hframe]
    exact h.outputs
  · intro m mon hm k hk
    rw [hframe] at hm
    rw [hmon k]
    exact h.selected m mon hm k hk

theorem RegroupsBut.reorder (h : Owned s) (hg : RegroupsBut s (key :: pending)) :
    RegroupsBut (reorderClientInMonitorGroups s key) pending := by
  intro m l hl
  have hf : (reorderClientInMonitorGroups s key).isClientFloating = s.isClientFloating := by
    rw [reorder_frame]
    rfl
  rw [hf]
  rw [reorder_lists h key m] at hl
  obtain ⟨l0, hl0, rfl⟩ := map_eq_some_iff.1 hl
  split
  · exact (hg m l0 hl0).regroup (h.lists.nodup m l0 hl0)
  · rename_i hm
    have hk : key ∉ l0 := h.not_mem_list hl0 hm
    refine List.Pairwise.imp_of_mem ?_ (hg m l0 hl0)
    intro a b ha hb hab hap hbp
    have hak : a ≠ key := fun e => hk (e ▸ ha)
    have hbk : b ≠ key := fun e => hk (e ▸ hb)
    exact hab (by simp [hak, hap]) (by simp [hbk, hbp])

theorem Owned.modifyClient (h : Owned s) (key : ClientKey) (hf : ∀ c, (f c).mon = c.mon) : Owned (s.modifyClient key f) := by
  have hmon : ∀ k, (s.modifyClient key f).monOf k = s.monOf k := by
    intro k
    unfold monOf
    rw [modifyClient_get?]
    split
    · cases s.clients.get? k with
      | none => rfl
      | some c => exact hf c
    · rfl
  refine ⟨⟨h.lists.nodup, fun m l hl k => ?_⟩, fun m l hl => ⟨(h.focusStacks m l hl).1, fun k => ?_⟩, fun k m hk => ?_,
    h.kept, h.outputs, fun m mon hm k hk => ?_⟩
  · rw [hmon k]
    exact h.lists.mem m l hl k
  · rw [hmon k]
    exact (h.focusStacks m l hl).2 k
  · rw [hmon k] at hk
    exact h.live k m hk
  · rw [hmon k]
    exact h.selected m mon hm k hk

theorem RegroupsBut.modifyClient (h : RegroupsBut s pending) (key : ClientKey)
    (hf : ∀ c, (f c).state.isFloating = c.state.isFloating) : RegroupsBut (s.modifyClient key f) pending := by
  have hfl : (s.modifyClient key f).isClientFloating = s.isClientFloating := by
    funext k
    unfold isClientFloating
    rw [modifyClient_get?]
    split
    · cases s.clients.get? k with
      | none => rfl
      | some c => exact hf c
    · rfl
  intro m l hl
  rw [hfl]
  exact h m l hl

theorem migrateClients (ctx : HotplugContext) : ∀ {keys : List ClientKey} {s : WMState}, Owned s →
    RegroupsBut s (keys ++ pending) → Owned (keys.foldl (migrateClient ctx) s) ∧
      RegroupsBut (keys.foldl (migrateClient ctx) s) pending
  | [], s, h, hg => ⟨h, hg⟩
  | key :: keys, s, h, hg => by
    have h1 := h.modifyClient key (f := fun client => { client with geometry := ctx.place key client.geometry })
      fun _ => rfl
    have hg1 := RegroupsBut.modifyClient hg key
      (f := fun client => { client with geometry := ctx.place key client.geometry }) fun _ => rfl
    have rest := migrateClients ctx (h1.reorder key) (RegroupsBut.reorder h1 hg1)
    exact rest

end Regroup

end Jwm
