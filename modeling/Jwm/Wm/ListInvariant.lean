/-
The monitor list invariant, kept by whatever attaches, detaches and regroups clients (`jwm/client_stack.rs`,
`jwm/maximize.rs`).
-/
import Jwm.Wm.PromotionRuns
import Mathlib.Data.Set.Insert

namespace Jwm

open List Option WMState

/-! ## The invariant -/

/-- Every list holds the attached clients of its monitor, each once. -/
structure Listed (s : WMState) (attached : Set ClientKey) : Prop where
  nodup : ∀ m l, s.monitorClients.get? m = some l → l.Nodup
  mem : ∀ m l, s.monitorClients.get? m = some l → ∀ k, k ∈ l ↔ k ∈ attached ∧ s.monOf k = some m

structure ListsOk (s : WMState) (attached : Set ClientKey) : Prop extends Listed s attached where
  grouped : ∀ m l, s.monitorClients.get? m = some l → Grouped s.isClientFloating l

def Unlisted (s : WMState) (key : ClientKey) : Prop := ∀ m l, s.monitorClients.get? m = some l → key ∉ l

/-- The two states name the same monitor and floating flag for every client. -/
structure SameView (s s' : WMState) : Prop where
  mon : ∀ k, s'.monOf k = s.monOf k
  floating : ∀ k, s'.isClientFloating k = s.isClientFloating k

/-- `s'` is `s` with `key` moved to, or put into, a place in its group of its own monitor's list. -/
structure Relisted (s s' : WMState) (key : ClientKey) : Prop where
  view : SameView s s'
  other : ∀ m, s.monOf key ≠ some m → s'.monitorClients.get? m = s.monitorClients.get? m
  absent : ∀ m, s.monitorClients.get? m = none → s'.monitorClients.get? m = none
  own : ∀ m l, s.monOf key = some m → s.monitorClients.get? m = some l →
    ∃ i, Slot s.isClientFloating (l.erase key) key i ∧
      s'.monitorClients.get? m = some ((l.erase key).insertIdx i key)

/-- `s'` is `s` with `key` gone from `mon`'s list. -/
structure Delisted (s s' : WMState) (mon : MonitorKey) (key : ClientKey) : Prop where
  view : SameView s s'
  lists : ∀ m, s'.monitorClients.get? m =
    if m = mon then (s.monitorClients.get? m).map (·.erase key) else s.monitorClients.get? m

namespace SameView

variable {s s' s'' : WMState}

theorem refl (s : WMState) : SameView s s := ⟨fun _ => rfl, fun _ => rfl⟩

theorem of_clients (h : ∀ k, s'.clients.get? k = s.clients.get? k) : SameView s s' :=
  ⟨fun k => by rw [monOf, h]; rfl, fun k => by rw [isClientFloating, h]; rfl⟩

theorem isFloating_eq (h : SameView s s') : s'.isClientFloating = s.isClientFloating := funext h.floating

theorem splice (s : WMState) (mon : MonitorKey) (key : ClientKey) : SameView s (spliceRestoreAnchors s mon key) := by
  have keep : ∀ k, (spliceRestoreAnchors s mon key).clients.get? k = s.clients.get? k ∨
      ∃ a, (spliceRestoreAnchors s mon key).clients.get? k = (s.clients.get? k).map (setRestoreAnchor · a) := by
    intro k
    rw [(splice_spec s mon key).2 k]
    split
    · exact .inl rfl
    · split_ifs
      · exact .inr ⟨_, rfl⟩
      · exact .inl rfl
  constructor
  · intro k
    unfold monOf
    rcases keep k with h | ⟨a, h⟩
    · rw [h]
    · rw [h]; cases s.clients.get? k <;> rfl
  · intro k
    unfold isClientFloating
    rcases keep k with h | ⟨a, h⟩
    · rw [h]
    · rw [h]; cases s.clients.get? k <;> rfl

end SameView

theorem splice_monitorClients (s : WMState) (mon : MonitorKey) (key : ClientKey) :
    (spliceRestoreAnchors s mon key).monitorClients = s.monitorClients := by
  rw [(splice_spec s mon key).1]

/-! ## What a change of the lists keeps -/

section Keep

variable {s s' : WMState} {attached : Set ClientKey} {key : ClientKey} {mon : MonitorKey}

theorem Listed.not_mem (h : Listed s attached) {m : MonitorKey} {l : List ClientKey}
    (hl : s.monitorClients.get? m = some l) (hm : s.monOf key ≠ some m) : key ∉ l :=
  fun hk => hm ((h.mem m l hl key).1 hk).2

/-- Grouping the other clients is enough for a client that finds a place in its own group. -/
theorem Listed.relisted (h : Listed s attached)
    (hg : ∀ m l, s.monitorClients.get? m = some l → Grouped s.isClientFloating (l.erase key))
    (hr : Relisted s s' key) : ListsOk s' (insert key attached) := by
  have cases_of : ∀ m l', s'.monitorClients.get? m = some l' →
      (s.monOf key ≠ some m ∧ s.monitorClients.get? m = some l' ∧ key ∉ l') ∨
      (s.monOf key = some m ∧ ∃ l i, s.monitorClients.get? m = some l ∧
        Slot s.isClientFloating (l.erase key) key i ∧ l' = (l.erase key).insertIdx i key) := by
    intro m l' hl'
    by_cases hm : s.monOf key = some m
    · cases hl : s.monitorClients.get? m with
      | none => rw [hr.absent m hl] at hl'; cases hl'
      | some l =>
        obtain ⟨i, hs, e⟩ := hr.own m l hm hl
        rw [hl'] at e
        exact .inr ⟨hm, l, i, rfl, hs, some.inj e⟩
    · rw [hr.other m hm] at hl'
      exact .inl ⟨hm, hl', h.not_mem hl' hm⟩
  refine ⟨⟨?_, ?_⟩, ?_⟩
  · intro m l' hl'
    rcases cases_of m l' hl' with ⟨-, hl, -⟩ | ⟨-, l, i, hl, hs, rfl⟩
    · exact h.nodup m l' hl
    · rw [(perm_insertIdx _ _ hs.le).nodup_iff, nodup_cons]
      exact ⟨(h.nodup m l hl).not_mem_erase, (h.nodup m l hl).erase key⟩
  · intro m l' hl' k
    rw [hr.view.mon k, Set.mem_insert_iff]
    rcases cases_of m l' hl' with ⟨hm, hl, hk⟩ | ⟨hm, l, i, hl, hs, rfl⟩
    · rw [h.mem m l' hl k]
      constructor
      · rintro ⟨ha, hkm⟩; exact ⟨.inr ha, hkm⟩
      · rintro ⟨rfl | ha, hkm⟩
        · exact absurd hkm hm
        · exact ⟨ha, hkm⟩
    · rw [(perm_insertIdx _ _ hs.le).mem_iff, mem_cons, (h.nodup m l hl).mem_erase_iff, h.mem m l hl k]
      constructor
      · rintro (rfl | ⟨-, ha, hk⟩)
        · exact ⟨.inl rfl, hm⟩
        · exact ⟨.inr ha, hk⟩
      · rintro ⟨rfl | ha, hk⟩
        · exact .inl rfl
        · by_cases e : k = key
          · exact .inl e
          · exact .inr ⟨e, ha, hk⟩
  · intro m l' hl'
    rw [hr.view.isFloating_eq]
    rcases cases_of m l' hl' with ⟨-, hl, hk⟩ | ⟨-, l, i, hl, hs, rfl⟩
    · have := hg m l' hl
      rwa [erase_of_not_mem hk] at this
    · exact (hg m l hl).insertIdx hs

theorem ListsOk.relisted (h : ListsOk s attached) (hr : Relisted s s' key) : ListsOk s' (insert key attached) :=
  h.toListed.relisted (fun m l hl => (h.grouped m l hl).sublist erase_sublist) hr

theorem ListsOk.delisted (h : ListsOk s attached) (hd : Delisted s s' mon key) :
    ListsOk s' (if s.monOf key = some mon then attached \ {key} else attached) := by
  have cases_of : ∀ m l', s'.monitorClients.get? m = some l' →
      ∃ l, s.monitorClients.get? m = some l ∧ l' = if m = mon then l.erase key else l := by
    intro m l' hl'
    rw [hd.lists m] at hl'
    split_ifs at hl' with hm
    · obtain ⟨l, hl, rfl⟩ := map_eq_some_iff.1 hl'
      exact ⟨l, hl, by rw [if_pos hm]⟩
    · exact ⟨l', hl', by rw [if_neg hm]⟩
  refine ⟨⟨?_, ?_⟩, ?_⟩
  · intro m l' hl'
    obtain ⟨l, hl, rfl⟩ := cases_of m l' hl'
    split
    · exact (h.nodup m l hl).erase key
    · exact h.nodup m l hl
  · intro m l' hl' k
    obtain ⟨l, hl, rfl⟩ := cases_of m l' hl'
    rw [hd.view.mon k]
    by_cases hm : m = mon
    · subst hm
      rw [if_pos rfl, (h.nodup m l hl).mem_erase_iff, h.mem m l hl k]
      split_ifs with hk
      · rw [Set.mem_sdiff, Set.mem_singleton_iff]
        constructor
        · rintro ⟨e, ha, hm⟩
          exact ⟨⟨ha, e⟩, hm⟩
        · rintro ⟨⟨ha, e⟩, hm⟩
          exact ⟨e, ha, hm⟩
      · constructor
        · rintro ⟨_, h⟩
          exact h
        · intro h
          refine ⟨?_, h⟩
          rintro rfl
          exact hk h.2
    · rw [if_neg hm, h.mem m l hl k]
      split_ifs with hk
      · rw [Set.mem_sdiff, Set.mem_singleton_iff]
        constructor
        · rintro ⟨ha, hkm⟩
          refine ⟨⟨ha, ?_⟩, hkm⟩
          rintro rfl
          exact hm (some.inj (hkm.symm.trans hk))
        · rintro ⟨⟨ha, _⟩, hm⟩
          exact ⟨ha, hm⟩
      · exact Iff.rfl
  · intro m l' hl'
    obtain ⟨l, hl, rfl⟩ := cases_of m l' hl'
    rw [hd.view.isFloating_eq]
    split
    · exact (h.grouped m l hl).sublist erase_sublist
    · exact h.grouped m l hl

end Keep

/-! ## What each operation does to the lists -/

variable {s1 : WMState} {anchor : Option ClientKey}

section Operations

variable {s s' : WMState} {key : ClientKey} {mon : MonitorKey} {l : List ClientKey} {i : Nat}

theorem Relisted.of_absent (hv : SameView s s') (h : ∀ m, s'.monitorClients.get? m = s.monitorClients.get? m)
    (hm : ∀ m, s.monOf key = some m → s.monitorClients.get? m = none) : Relisted s s' key where
  view := hv
  other m _ := h m
  absent m hn := (h m).trans hn
  own m l hk hl := by rw [hm m hk] at hl; cases hl

theorem Relisted.of_slot (hv : SameView s s') (hm : s.monOf key = some mon) (hl : s.monitorClients.get? mon = some l)
    (hs : Slot s.isClientFloating (l.erase key) key i)
    (h : ∀ m, s'.monitorClients.get? m =
      if m = mon then some ((l.erase key).insertIdx i key) else s.monitorClients.get? m) : Relisted s s' key where
  view := hv
  other m hk := by
    rw [h m, if_neg]
    rintro rfl
    exact hk hm
  absent m hn := by
    rw [h m, if_neg, hn]
    rintro rfl
    rw [hl] at hn
    cases hn
  own m l' hk hl' := by
    have e : m = mon := some.inj (hk.symm.trans hm)
    subst e
    rw [hl] at hl'
    cases hl'
    exact ⟨i, hs, by rw [h m, if_pos rfl]⟩

theorem setList_lists (hl : s.monitorClients.get? mon = some l) (l' : List ClientKey) (m : MonitorKey) :
    (s.setList mon l').monitorClients.get? m = if m = mon then some l' else s.monitorClients.get? m := by
  rw [setList_get?]
  split_ifs with hm
  · rw [hm, hl]; rfl
  · rfl

theorem slot_reorder (f : ClientKey → Bool) (l : List ClientKey) (key : ClientKey) :
    ∃ i, Slot f l key i ∧ (if f key then l ++ [key] else l.insertIdx ((l.findIdx? f).getD l.length) key) =
      l.insertIdx i key := by
  cases hf : f key with
  | true =>
    refine ⟨l.length, ⟨Nat.le_refl _, ?_, ?_⟩, ?_⟩
    · intro h; rw [hf] at h; cases h
    · intro _; exact (slot_boundary f l key).le
    · have := insertIdx_append_length l [] key
      rw [append_nil] at this
      rw [if_pos rfl, this]
  | false => exact ⟨_, slot_boundary f l key, by simp⟩

/-- A client pushed onto its monitor's list, or there already, is regrouped within it. -/
theorem relisted_reorder {l1 : List ClientKey} (hv : SameView s s1) (hm : s.monOf key = some mon)
    (hl : s.monitorClients.get? mon = some l) (hk : key ∈ l1) (he : l1.erase key = l.erase key)
    (h1 : ∀ m, s1.monitorClients.get? m = if m = mon then some l1 else s.monitorClients.get? m) :
    Relisted s (reorderClientInMonitorGroups s1 key) key := by
  have hl1 : s1.monitorClients.get? mon = some l1 := by rw [h1, if_pos rfl]
  have hm1 : s1.monOf key = some mon := (hv.mon key).trans hm
  obtain ⟨client, hc, hcm⟩ := bind_eq_some_iff.1 hm1
  have hf : client.state.isFloating = s.isClientFloating key := by
    rw [← hv.floating key, isClientFloating, hc]; rfl
  obtain ⟨i, hs, hi⟩ := slot_reorder s.isClientFloating (l.erase key) key
  rw [reorder_eq hc hcm hl1 hk, he, hf, hv.isFloating_eq, hi]
  refine Relisted.of_slot ⟨hv.mon, hv.floating⟩ hm hl hs fun m => ?_
  rw [setList_lists hl1]
  split_ifs with hmm
  · rfl
  · rw [h1, if_neg hmm]

theorem reorder_absent (h : ∀ m, s.monOf key = some m → s.monitorClients.get? m = none) :
    reorderClientInMonitorGroups s key = s := by
  unfold reorderClientInMonitorGroups
  split
  · rfl
  · rename_i client hc
    split
    · rfl
    · rename_i m hm
      have hm' : s.monOf key = some m := by rw [monOf, hc]; exact hm
      simp only [h m hm']

theorem relisted_push (hm : s.monOf key = some mon) (hu : Unlisted s key)
    (hc : s1.clients = s.clients) (h1 : s1.monitorClients = s.monitorClients.modify mon (· ++ [key])) :
    Relisted s (reorderClientInMonitorGroups s1 key) key := by
  have hv : SameView s s1 := .of_clients fun k => by rw [hc]
  have hget : ∀ m, s1.monitorClients.get? m =
      if m = mon then (s.monitorClients.get? m).map (· ++ [key]) else s.monitorClients.get? m := by
    intro m; rw [h1, KeyMap.get?_modify]
  cases hl : s.monitorClients.get? mon with
  | none =>
    have same : ∀ m, s1.monitorClients.get? m = s.monitorClients.get? m := by
      intro m
      rw [hget]
      split_ifs with hmm
      · rw [hmm, hl]; rfl
      · rfl
    have habs : ∀ m, s.monOf key = some m → s.monitorClients.get? m = none := by
      intro m hk
      rw [hm] at hk
      exact some.inj hk ▸ hl
    rw [reorder_absent fun m hk => (same m).trans (habs m ((hv.mon key).symm.trans hk))]
    exact .of_absent hv same habs
  | some l =>
    have hk : key ∈ l ++ [key] := by simp
    refine relisted_reorder hv hm hl hk ?_ fun m => ?_
    · rw [erase_append_right _ (hu mon l hl), erase_of_not_mem (hu mon l hl)]
      simp
    · rw [hget]
      split_ifs with hmm
      · rw [hmm, hl]; rfl
      · rfl

theorem relisted_attachBack (hu : Unlisted s key) : Relisted s (attachBack s key) key := by
  unfold attachBack
  cases hm : s.monOf key with
  | none =>
    have habs : ∀ m, s.monOf key = some m → s.monitorClients.get? m = none := fun m h => by rw [hm] at h; cases h
    rw [reorder_absent habs]
    exact .of_absent (.refl s) (fun _ => rfl) habs
  | some mon => exact relisted_push hm hu rfl rfl

theorem relisted_attachToMonitor (hm : s.monOf key = some mon) (hu : Unlisted s key) :
    Relisted s (attachToMonitor s key mon) key :=
  relisted_push hm hu rfl rfl

/-- A new client joins at the start of its group or right after a member of it. -/
theorem newClientInsertIndex_group (position : NewClientPosition) (len firstFloating : Nat) (isFloating : Bool)
    (selIndex : Option Nat) (h : firstFloating ≤ len) :
    let idx := newClientInsertIndex position len firstFloating isFloating selIndex
    if isFloating then firstFloating ≤ idx ∧ idx ≤ len else idx ≤ firstFloating := by
  have after : ∀ lo hi, lo ≤ hi → lo ≤ ((selIndex.filter fun i => lo ≤ i && i < hi).map (· + 1)).getD lo ∧
      ((selIndex.filter fun i => lo ≤ i && i < hi).map (· + 1)).getD lo ≤ hi := by
    intro lo hi hle
    cases hsel : selIndex.filter fun i => lo ≤ i && i < hi with
    | none => exact ⟨Nat.le_refl lo, hle⟩
    | some i =>
      obtain ⟨-, hi⟩ := filter_eq_some_iff.1 hsel
      simp only [Bool.and_eq_true, decide_eq_true_eq] at hi
      simp only [map_some, getD_some]
      omega
  unfold newClientInsertIndex
  rw [Nat.min_eq_left h]
  cases isFloating with
  | true =>
    cases position with
    | afterFocused => exact after firstFloating len h
    | master | tail => exact ⟨Nat.le_refl _, h⟩
  | false =>
    cases position with
    | afterFocused => exact (after 0 firstFloating (Nat.zero_le _)).2
    | master | tail => exact Nat.zero_le _

theorem slot_newClientInsertIndex (f : ClientKey → Bool) (l : List ClientKey) (key : ClientKey)
    (position : NewClientPosition) (selIndex : Option Nat) :
    Slot f l key (newClientInsertIndex position l.length ((l.findIdx? f).getD l.length) (f key) selIndex) := by
  have hb := (slot_boundary f l key).le
  have h := newClientInsertIndex_group position l.length _ (f key) selIndex hb
  cases hf : f key with
  | true =>
    rw [hf] at h
    exact ⟨h.2, fun hn => absurd (hf.symm.trans hn) (by decide), fun _ => h.1⟩
  | false =>
    rw [hf] at h
    exact ⟨Nat.le_trans h hb, fun _ => h, fun hn => by rw [hf] at hn; cases hn⟩

theorem relisted_attachNewClient (position : NewClientPosition) (hu : Unlisted s key) :
    Relisted s (attachNewClient s position key) key := by
  unfold attachNewClient
  split_ifs with hp
  · exact relisted_attachBack hu
  · cases hm : s.monOf key with
    | none => exact .of_absent (.refl s) (fun _ => rfl) fun m h => by rw [hm] at h; cases h
    | some mon =>
      cases hl : s.monitorClients.get? mon with
      | none =>
        simp only [hl]
        refine .of_absent (.refl s) (fun _ => rfl) fun m h => ?_
        rw [hm] at h
        exact some.inj h ▸ hl
      | some l =>
        simp only [hl]
        have he : l.erase key = l := erase_of_not_mem (hu mon l hl)
        have hs := slot_newClientInsertIndex s.isClientFloating l key position
          ((((s.monitors.get? mon).bind (·.sel)).filter fun sel =>
            sel != key && s.isClientFloating sel == s.isClientFloating key).bind fun sel => l.idxOf? sel)
        rw [← he] at hs
        refine .of_slot ⟨fun _ => rfl, fun _ => rfl⟩ hm hl hs fun m => ?_
        rw [setList_lists hl, he]

theorem relisted_moveToFront (s : WMState) (key : ClientKey) : Relisted s (moveToFront s key) key := by
  unfold moveToFront
  cases hc : s.clients.get? key with
  | none =>
    refine .of_absent (.refl s) (fun _ => rfl) fun m h => ?_
    rw [monOf, hc] at h
    cases h
  | some client =>
    have hmon : s.monOf key = client.mon := by rw [monOf, hc]; rfl
    cases hcm : client.mon with
    | none =>
      simp only [hcm]
      refine .of_absent (.refl s) (fun _ => rfl) fun m h => ?_
      rw [hmon, hcm] at h
      cases h
    | some mon =>
      have hm : s.monOf key = some mon := hmon.trans hcm
      have hf : s.isClientFloating key = client.state.isFloating := by rw [isClientFloating, hc]; rfl
      simp only [hcm]
      -- only a tile re-points the anchors naming it
      generalize hs1 : (if !client.state.isFloating then spliceRestoreAnchors s mon key else s) = s1
      have hv : SameView s s1 := by
        rw [← hs1]
        split
        · exact .splice s mon key
        · exact .refl s
      have hlists : s1.monitorClients = s.monitorClients := by
        rw [← hs1]
        split
        · exact splice_monitorClients s mon key
        · rfl
      cases hl : s.monitorClients.get? mon with
      | none =>
        simp only [hlists, hl]
        refine .of_absent hv (fun m => by rw [hlists]) fun m h => ?_
        rw [hm] at h
        exact some.inj h ▸ hl
      | some l =>
        simp only [hlists, hl]
        have hs : Slot s.isClientFloating (l.erase key) key
            (if client.state.isFloating then
              ((l.erase key).findIdx? s.isClientFloating).getD (l.erase key).length else 0) := by
          cases hfl : client.state.isFloating with
          | true => exact slot_boundary _ _ _
          | false =>
            exact ⟨Nat.zero_le _, fun _ => Nat.zero_le _, fun h => by rw [hf, hfl] at h; cases h⟩
        have placed : ∀ l', l' = l.erase key → Relisted s (s1.setList mon (l'.insertIdx
            (if client.state.isFloating then (l'.findIdx? s1.isClientFloating).getD l'.length else 0) key)) key := by
          rintro _ rfl
          rw [hv.isFloating_eq]
          refine .of_slot ⟨hv.mon, hv.floating⟩ hm hl hs fun m => ?_
          rw [setList_lists (hlists ▸ hl), hlists]
        apply placed
        cases hp : l.idxOf? key with
        | none => exact (erase_of_not_mem (idxOf?_eq_none_iff.1 hp)).symm
        | some pos => exact eraseIdx_of_idxOf? hp

theorem relisted_retile (hm : s.monOf key = some mon)
    (hf : s.isClientFloating key = false) (hl : s.monitorClients.get? mon = some l)
    (hg : Grouped s.isClientFloating (l.erase key)) (h : retileBeforeAnchor s mon key anchor = some s') :
    Relisted s s' key := by
  obtain ⟨l', a, t, b, hl', hk, ht, he, rfl⟩ := retile_some h
  rw [hl] at hl'
  cases hl'
  rw [he] at hg
  have hs : Slot s.isClientFloating (l.erase key) key a.length := by
    refine ⟨by rw [he]; simp, fun _ => ?_, fun h => by rw [hf] at h; cases h⟩
    have ha : ∀ x ∈ a, s.isClientFloating x = false := by
      intro x hx
      cases hfx : s.isClientFloating x with
      | false => rfl
      | true =>
        rw [(pairwise_append.1 hg).2.2 x hx t (mem_cons_self ..) hfx] at ht
        cases ht
    rw [he, ← findIdx_eq_getD_findIdx?, findIdx_append, if_neg]
    · omega
    · simpa using ha
  refine .of_slot ⟨fun _ => rfl, fun _ => rfl⟩ hm hl hs fun m => ?_
  rw [setList_lists hl, he, insertIdx_append_length]

theorem delisted_detach (hm : s.monOf key = some mon) : Delisted s (detach s key) mon key := by
  have hv := SameView.splice s mon key
  have hlists := splice_monitorClients s mon key
  unfold detach
  simp only [hm, hlists]
  cases hl : s.monitorClients.get? mon with
  | none =>
    refine ⟨hv, fun m => ?_⟩
    simp only [hlists]
    split_ifs with hmm
    · rw [hmm, hl]; rfl
    · rfl
  | some l =>
    cases hp : l.idxOf? key with
    | none =>
      simp only [hp]
      refine ⟨hv, fun m => ?_⟩
      rw [hlists]
      split_ifs with hmm
      · rw [hmm, hl, map_some, erase_of_not_mem (idxOf?_eq_none_iff.1 hp)]
      · rfl
    | some pos =>
      simp only [hp]
      refine ⟨⟨hv.mon, hv.floating⟩, fun m => ?_⟩
      rw [setList_lists (hlists ▸ hl), hlists, eraseIdx_of_idxOf? hp]
      split_ifs with hmm
      · rw [hmm, hl]; rfl
      · rfl

theorem delisted_detachFromMonitor (hn : ∀ l, s.monitorClients.get? mon = some l → l.Nodup) :
    Delisted s (detachFromMonitor s key mon) mon key := by
  have hv := SameView.splice s mon key
  refine ⟨⟨hv.mon, hv.floating⟩, fun m => ?_⟩
  show ((spliceRestoreAnchors s mon key).monitorClients.modify mon _).get? m = _
  rw [splice_monitorClients, KeyMap.get?_modify]
  split_ifs with hmm
  · subst hmm
    cases hl : s.monitorClients.get? m with
    | none => rfl
    | some l => rw [map_some, map_some, (hn l hl).erase_eq_filter]
  · rfl

end Operations

/-! ## Runs -/

def toggleFloating (s : WMState) (key : ClientKey) : WMState :=
  reorderClientInMonitorGroups
    (s.modifyClient key fun c => { c with state := { c.state with isFloating := !c.state.isFloating } }) key

/-- One operation on the lists. The second component is the set of attached clients. -/
inductive ListStep : WMState × Set ClientKey → WMState × Set ClientKey → Prop
  /-- Anything that leaves the lists and the attached clients' monitor and floating flag alone: the
  selection and the anchors change, detached clients are created, reassigned and removed. -/
  | other {s s' A} (hl : s'.monitorClients = s.monitorClients)
      (hv : ∀ k ∈ A, s'.monOf k = s.monOf k ∧ s'.isClientFloating k = s.isClientFloating k) : ListStep (s, A) (s', A)
  | attachNewClient {s A key} (position : NewClientPosition) (hu : Unlisted s key) :
      ListStep (s, A) (attachNewClient s position key, insert key A)
  | attachBack {s A key} (hu : Unlisted s key) : ListStep (s, A) (attachBack s key, insert key A)
  | attachToMonitor {s A key mon} (hm : s.monOf key = some mon) (hu : Unlisted s key) :
      ListStep (s, A) (attachToMonitor s key mon, insert key A)
  | detach {s A} (key : ClientKey) : ListStep (s, A) (detach s key, A \ {key})
  | detachFromMonitor {s A} (key : ClientKey) (mon : MonitorKey) :
      ListStep (s, A) (detachFromMonitor s key mon, if s.monOf key = some mon then A \ {key} else A)
  | toggleFloating {s A} (key : ClientKey) : ListStep (s, A) (toggleFloating s key, A)
  | moveToFront {s A} (key : ClientKey) : ListStep (s, A) (moveToFront s key, insert key A)
  | retileBeforeAnchor {s A key mon} (anchor : Option ClientKey) (hf : s.isClientFloating key = false) :
      ListStep (s, A) ((retileBeforeAnchor s mon key anchor).getD s, A)
  /-- The return from a maximize promotion: the floating flag goes, then the client goes back in
  front of its anchor or, failing that, to the end of the tiles. -/
  | unpromote {s A key} (plan : MaximizePlan) (slot : RestingSlot) : ListStep (s, A) (unpromote s key plan slot, A)

section Runs

variable {s s' : WMState} {A : Set ClientKey} {key : ClientKey}

theorem ListsOk.modifyClient (h : ListsOk s A) (key : ClientKey) (f : WMClient → WMClient)
    (hf : ∀ c, (f c).mon = c.mon) :
    Listed (s.modifyClient key f) A ∧ ∀ m l, (s.modifyClient key f).monitorClients.get? m = some l →
      Grouped (s.modifyClient key f).isClientFloating (l.erase key) := by
  have hmon : ∀ k, (s.modifyClient key f).monOf k = s.monOf k := by
    intro k
    unfold monOf
    rw [modifyClient_get?]
    split_ifs
    · cases s.clients.get? k with
      | none => rfl
      | some c => exact hf c
    · rfl
  refine ⟨⟨h.nodup, fun m l hl k => by rw [hmon k]; exact h.mem m l hl k⟩, fun m l hl => ?_⟩
  have hother : ∀ k ∈ l.erase key, (s.modifyClient key f).isClientFloating k = s.isClientFloating k := by
    intro k hk
    have hne : k ≠ key := ((h.nodup m l hl).mem_erase_iff.1 hk).1
    unfold isClientFloating
    rw [modifyClient_get?, if_neg hne]
  refine List.Pairwise.imp_of_mem ?_ ((h.grouped m l hl).sublist erase_sublist)
  intro x y hx hy hxy hfx
  rw [hother y hy]
  exact hxy (hother x hx ▸ hfx)

section

variable (h : Listed s A) (hg : ∀ m l, s.monitorClients.get? m = some l → Grouped s.isClientFloating (l.erase key))
include h hg

theorem Listed.reorder : ListsOk (reorderClientInMonitorGroups s key) A := by
  have settled : Unlisted s key → ListsOk s A := fun hu =>
    ⟨h, fun m l hl => by have := hg m l hl; rwa [erase_of_not_mem (hu m l hl)] at this⟩
  cases hm : s.monOf key with
  | none =>
    rw [reorder_absent fun m hk => by rw [hm] at hk; cases hk]
    exact settled fun m l hl hk => by
      have := ((h.mem m l hl key).1 hk).2
      rw [hm] at this
      cases this
  | some mon =>
    have own : ∀ m l, s.monitorClients.get? m = some l → key ∈ l → m = mon := by
      intro m l hl hk
      have := ((h.mem m l hl key).1 hk).2
      rw [hm] at this
      exact (some.inj this).symm
    cases hl : s.monitorClients.get? mon with
    | none =>
      rw [reorder_absent fun m hk => by rw [hm] at hk; exact some.inj hk ▸ hl]
      refine settled fun m l hl' hk => ?_
      rw [own m l hl' hk, hl] at hl'
      cases hl'
    | some l =>
      by_cases hk : key ∈ l
      · have hr := relisted_reorder (.refl s) hm hl hk rfl fun m => by
          split_ifs with hmm
          · rw [hmm, hl]
          · rfl
        have := h.relisted hg hr
        rwa [Set.insert_eq_of_mem ((h.mem mon l hl key).1 hk).1] at this
      · rw [reorder_unlisted hm hl hk]
        refine settled fun m l' hl' hk' => ?_
        rw [own m l' hl' hk', hl] at hl'
        exact hk (some.inj hl' ▸ hk')

theorem Listed.retile {mon : MonitorKey} (hf : s.isClientFloating key = false)
    (hs : retileBeforeAnchor s mon key anchor = some s') : ListsOk s' A := by
  obtain ⟨l, -, -, -, hl, hk, -⟩ := retile_some hs
  obtain ⟨hA, hm⟩ := (h.mem mon l hl key).1 hk
  have := h.relisted hg (relisted_retile hm hf hl (hg mon l hl) hs)
  rwa [Set.insert_eq_of_mem hA] at this

end

theorem ListsOk.unpromote (h : ListsOk s A) (plan : MaximizePlan) (slot : RestingSlot) :
    ListsOk (unpromote s key plan slot) A := by
  obtain ⟨hl, hg⟩ := h.modifyClient key (commitClient · plan slot false true false none) fun _ => rfl
  have hf : (s.modifyClient key (commitClient · plan slot false true false none)).isClientFloating key = false := by
    unfold isClientFloating
    rw [modifyClient_get?, if_pos rfl]
    cases s.clients.get? key with
    | none => rfl
    | some c => exact commitClient_retile_isFloating c plan slot
  unfold Jwm.unpromote
  generalize s.modifyClient key (commitClient · plan slot false true false none) = s1 at hl hg hf
  generalize (s.clients.get? key).bind (·.state.maximizeRestoreAnchor) = anchor
  show ListsOk (((s1.monOf key).bind (retileBeforeAnchor s1 · key anchor)).getD (reorderClientInMonitorGroups s1 key)) A
  cases hm : (s1.monOf key).bind (retileBeforeAnchor s1 · key anchor) with
  | none => exact hl.reorder hg
  | some s2 =>
    obtain ⟨mon, -, hs⟩ := bind_eq_some_iff.1 hm
    exact hl.retile hg hf hs

theorem ListsOk.detach (h : ListsOk s A) (key : ClientKey) : ListsOk (detach s key) (A \ {key}) := by
  cases hm : s.monOf key with
  | some mon =>
    have := h.delisted (delisted_detach hm)
    rwa [if_pos hm] at this
  | none =>
    have hd : Jwm.detach s key = s := by simp only [Jwm.detach, hm]
    rw [hd]
    refine ⟨⟨h.nodup, fun m l hl k => ?_⟩, h.grouped⟩
    rw [h.mem m l hl k, Set.mem_sdiff, Set.mem_singleton_iff]
    refine ⟨fun ⟨hA, hk⟩ => ⟨⟨hA, ?_⟩, hk⟩, fun ⟨⟨hA, _⟩, hk⟩ => ⟨hA, hk⟩⟩
    rintro rfl
    rw [hm] at hk
    cases hk

theorem ListsOk.step {x y : WMState × Set ClientKey} (h : ListsOk x.1 x.2) (st : ListStep x y) : ListsOk y.1 y.2 := by
  cases st with
  | other hl hv =>
    refine ⟨⟨fun m l h' => h.nodup m l (hl ▸ h'), fun m l h' k => ?_⟩, fun m l h' => ?_⟩
    · rw [h.mem m l (hl ▸ h') k]
      constructor
      · rintro ⟨hA, hm⟩; exact ⟨hA, (hv k hA).1.trans hm⟩
      · rintro ⟨hA, hm⟩; exact ⟨hA, (hv k hA).1.symm.trans hm⟩
    · refine List.Pairwise.imp_of_mem ?_ (h.grouped m l (hl ▸ h'))
      intro x y hx hy hxy hfx
      rw [(hv y ((h.mem m l (hl ▸ h') y).1 hy).1).2]
      exact hxy ((hv x ((h.mem m l (hl ▸ h') x).1 hx).1).2 ▸ hfx)
  | attachNewClient position hu => exact h.relisted (relisted_attachNewClient position hu)
  | attachBack hu => exact h.relisted (relisted_attachBack hu)
  | attachToMonitor hm hu => exact h.relisted (relisted_attachToMonitor hm hu)
  | detach key => exact h.detach key
  | detachFromMonitor key mon => exact h.delisted (delisted_detachFromMonitor (h.nodup mon))
  | toggleFloating key =>
    obtain ⟨hl, hg⟩ := h.modifyClient key
      (fun c => { c with state := { c.state with isFloating := !c.state.isFloating } }) fun _ => rfl
    exact hl.reorder hg
  | moveToFront key => exact h.relisted (relisted_moveToFront _ key)
  | @retileBeforeAnchor s A key mon anchor hf =>
    cases hs : retileBeforeAnchor s mon key anchor with
    | none => exact h
    | some s' =>
      exact h.toListed.retile (fun m l hl => (h.grouped m l hl).sublist erase_sublist) hf hs
  | unpromote plan slot => exact h.unpromote plan slot

/-- From empty lists, after any run of the list operations: no monitor's list has a repetition, it
holds exactly the attached clients assigned to the monitor, and the tiled ones come before the
floating ones. -/
theorem monitor_lists_ok (h0 : ∀ m l, s.monitorClients.get? m = some l → l = [])
    (hr : Relation.ReflTransGen ListStep (s, ∅) (s', A)) {m : MonitorKey} {l : List ClientKey}
    (hl : s'.monitorClients.get? m = some l) :
    l.Nodup ∧ (∀ k, k ∈ l ↔ k ∈ A ∧ s'.monOf k = some m) ∧
      ∃ tiles floats, l = tiles ++ floats ∧ (∀ k ∈ tiles, s'.isClientFloating k = false) ∧
        ∀ k ∈ floats, s'.isClientFloating k = true := by
  have start : ListsOk s ∅ := by
    refine ⟨⟨fun m l hl => ?_, fun m l hl k => ?_⟩, fun m l hl => ?_⟩
    · rw [h0 m l hl]; exact nodup_nil
    · rw [h0 m l hl]; simp
    · rw [h0 m l hl]; exact List.Pairwise.nil
  have run : ∀ {y : WMState × Set ClientKey}, Relation.ReflTransGen ListStep (s, ∅) y → ListsOk y.1 y.2 := by
    intro y hr
    induction hr with
    | refl => exact start
    | tail _ st ih => exact ih.step st
  have h := run hr
  exact ⟨h.nodup m l hl, h.mem m l hl, grouped_iff.1 (h.grouped m l hl)⟩

end Runs

namespace Sample

def bare : WMState := { state with monitorClients := ⟨[(mon, [])], by decide⟩ }

/-- The tile `a` and the floating `d` attached. -/
def attached : WMState := attachBack (attachNewClient bare .master a) d

theorem attached_run : Relation.ReflTransGen ListStep (bare, ∅) (attached, {d, a}) := by
  have fresh : ∀ {s : WMState} {l key}, s.monitorClients.entries = [(mon, l)] → key ∉ l → Unlisted s key := by
    intro s l key he hk m l' hl'
    rw [KeyMap.get?_eq_some, he, mem_singleton] at hl'
    cases hl'
    exact hk
  have first : ListStep (bare, ∅) (attachNewClient bare .master a, insert a ∅) :=
    .attachNewClient .master (fresh rfl (by decide))
  have second : ListStep (attachNewClient bare .master a, insert a ∅) (attached, insert d (insert a ∅)) :=
    .attachBack (fresh rfl (by decide))
  rw [insert_empty_eq] at first second
  exact .tail (.tail .refl first) second

theorem bare_empty : ∀ m l, bare.monitorClients.get? m = some l → l = [] := by
  intro m l hl
  have : (m, l) ∈ [(mon, ([] : List ClientKey))] := KeyMap.get?_eq_some.1 hl
  cases mem_singleton.1 this
  rfl

end Sample

/-- The tile and the floating window of `Sample.attached`, in the order they stand in. -/
theorem monitor_lists_ok_sample : Sample.attached.monitorClients.get? Sample.mon = some [Sample.a, Sample.d] ∧
    ∀ k, k ∈ [Sample.a, Sample.d] ↔ k ∈ ({Sample.d, Sample.a} : Set ClientKey) ∧ Sample.attached.monOf k = some Sample.mon :=
  ⟨rfl, (monitor_lists_ok Sample.bare_empty Sample.attached_run rfl).2.1⟩

/-- `retile_before_anchor` does not look at the flag of the client it moves: a floating window whose
anchor is a tile ends up in front of it. -/
theorem retile_floating_breaks_groups :
    Relation.ReflTransGen ListStep (Sample.bare, ∅) (Sample.attached, {Sample.d, Sample.a}) ∧
    ∃ s', retileBeforeAnchor Sample.attached Sample.mon Sample.d (some Sample.a) = some s' ∧
      s'.monitorClients.get? Sample.mon = some [Sample.d, Sample.a] ∧
      ¬ ∃ tiles floats, [Sample.d, Sample.a] = tiles ++ floats ∧ (∀ k ∈ tiles, s'.isClientFloating k = false) ∧
        ∀ k ∈ floats, s'.isClientFloating k = true := by
  refine ⟨Sample.attached_run, _, rfl, rfl, ?_⟩
  rw [← grouped_iff]
  intro h
  have := pairwise_cons.1 h
  exact absurd (this.1 Sample.a (by simp) rfl) (by decide)

end Jwm
