/-
What the operations on outputs leave of the monitors' numbers and rectangles: clients that move do not
touch them, removals drop the monitor that goes, and a refresh creates, renumbers and cuts by position.
-/
import Jwm.Wm.DisplayRefresh

namespace Jwm

open List Option WMMonitor

/-! ## What a change keeps of the monitors -/

def WMState.face (s : WMState) (key : MonitorKey) : Option (Int × Rect) :=
  (s.monitors.get? key).map fun m => (m.num, m.rect)

/-- The order lists the live monitors, each once. -/
structure WMState.Ordered (s : WMState) : Prop where
  nodup : s.monitorOrder.Nodup
  mem : ∀ k, k ∈ s.monitorOrder ↔ ∃ f, s.face k = some f

/-- The same monitors, numbers and rectangles. -/
structure SameFaces (s s' : WMState) : Prop where
  order : s'.monitorOrder = s.monitorOrder
  face : ∀ k, s'.face k = s.face k

namespace SameFaces

variable {s s' s'' : WMState}

theorem refl (s : WMState) : SameFaces s s := ⟨rfl, fun _ => rfl⟩

theorem trans (h : SameFaces s s') (h' : SameFaces s' s'') : SameFaces s s'' :=
  ⟨h'.order.trans h.order, fun k => (h'.face k).trans (h.face k)⟩

theorem of_monitors (ho : s'.monitorOrder = s.monitorOrder) (hm : s'.monitors = s.monitors) : SameFaces s s' :=
  ⟨ho, fun k => by rw [WMState.face, hm]; rfl⟩

theorem ordered (h : SameFaces s s') (hs : s.Ordered) : s'.Ordered := by
  refine ⟨h.order ▸ hs.nodup, fun k => ?_⟩
  rw [h.order, h.face]
  exact hs.mem k

theorem foldl {α : Type} {f : WMState → α → WMState} (hf : ∀ s a, SameFaces s (f s a)) :
    ∀ (l : List α) (s : WMState), SameFaces s (l.foldl f s)
  | [], s => refl s
  | a :: l, s => (hf s a).trans (foldl hf l (f s a))

theorem modifyClient (s : WMState) (key : ClientKey) (f : WMClient → WMClient) : SameFaces s (s.modifyClient key f) :=
  of_monitors rfl rfl

theorem reorder (s : WMState) (key : ClientKey) : SameFaces s (reorderClientInMonitorGroups s key) := by
  unfold reorderClientInMonitorGroups
  repeat' split
  all_goals exact of_monitors rfl rfl

theorem modifyMonitor (key : MonitorKey) {f : WMMonitor → WMMonitor}
    (hf : ∀ m, (f m).num = m.num ∧ (f m).rect = m.rect) (ho : s'.monitorOrder = s.monitorOrder)
    (hm : s'.monitors = s.monitors.modify key f) : SameFaces s s' := by
  refine ⟨ho, fun k => ?_⟩
  rw [WMState.face, WMState.face, hm, KeyMap.get?_modify]
  split
  · cases s.monitors.get? k with
    | none => rfl
    | some m =>
      obtain ⟨hn, hr⟩ := hf m
      show some ((f m).num, (f m).rect) = some (m.num, m.rect)
      rw [hn, hr]
  · rfl

theorem transferClient (source : MonitorKey) (target : Option MonitorKey) (tags : BitVec 32)
    (retired : Option ClientKey) (parked : List ClientKey) (s : WMState) (key : ClientKey) :
    SameFaces s (transferClient source target tags retired parked s key) := by
  have keep : ∀ m : WMMonitor, (m.clearSelectionOf key).num = m.num ∧ (m.clearSelectionOf key).rect = m.rect :=
    fun _ => ⟨rfl, rfl⟩
  unfold Jwm.transferClient
  simp only
  split
  · exact modifyMonitor source keep rfl rfl
  · cases target with
    | none | some target => exact modifyMonitor source keep rfl rfl

theorem moveClientsToFirstMonitor (ctx : HotplugContext) (s : WMState) (key : MonitorKey) :
    SameFaces s (moveClientsToFirstMonitor ctx s key) := by
  unfold Jwm.moveClientsToFirstMonitor transferOrOrphanMonitorClients
  simp only
  have moved := foldl (transferClient key ((migrationTarget ctx s key).filter s.monitors.contains)
    (((((migrationTarget ctx s key).filter s.monitors.contains).bind s.monitors.get?).map (·.activeTags)).getD 1)
    (ctx.retired key) (ctx.parked s)) (clientsOwnedByMonitor s key) s
  split
  · exact moved
  · exact moved.trans (foldl (fun s key => (modifyClient s key _).trans (reorder _ key)) _ _)

theorem placeClients (ctx : HotplugContext) (s : WMState) (keys : List ClientKey) :
    SameFaces s (placeClients ctx s keys) :=
  foldl (fun s key => modifyClient s key _) keys s

end SameFaces

/-! ## Monitors that go -/

section Remove

variable {s : WMState} {ctx : HotplugContext}

theorem face_removeMonitorState (s : WMState) (key k : MonitorKey) :
    (removeMonitorState s key).face k = if k = key then none else s.face k := by
  unfold WMState.face removeMonitorState
  simp only [KeyMap.get?_remove]
  split <;> rfl

theorem face_retireMonitor (ctx : HotplugContext) (s : WMState) (key k : MonitorKey) :
    (retireMonitor ctx s key).face k = if k = key then none else s.face k := by
  rw [retireMonitor, face_removeMonitorState, (SameFaces.moveClientsToFirstMonitor ctx s key).face]

theorem monitorOrder_retireMonitor (ctx : HotplugContext) (s : WMState) (key : MonitorKey) :
    (retireMonitor ctx s key).monitorOrder = s.monitorOrder.filter (· != key) := by
  rw [← (SameFaces.moveClientsToFirstMonitor ctx s key).order]
  rfl

theorem ordered_retireMonitor (h : s.Ordered) (ctx : HotplugContext) (key : MonitorKey) :
    (retireMonitor ctx s key).Ordered := by
  constructor
  · rw [monitorOrder_retireMonitor]
    exact h.nodup.filter _
  · intro k
    rw [monitorOrder_retireMonitor, mem_filter, face_retireMonitor, h.mem k]
    by_cases hk : k = key
    · simp [hk]
    · simp [hk]

/-- What the tail removals leave: the first `n` monitors as they were. -/
structure KeepsFirst (s s' : WMState) (n : Nat) : Prop where
  order : s'.monitorOrder = s.monitorOrder.take n
  face : ∀ k, s'.face k = if k ∈ s.monitorOrder.take n then s.face k else none

theorem keepsFirst_all (h : s.Ordered) {n : Nat} (hn : s.monitorOrder.length ≤ n) : KeepsFirst s s n := by
  have htake : s.monitorOrder.take n = s.monitorOrder := take_of_length_le hn
  refine ⟨htake.symm, fun k => ?_⟩
  rw [htake]
  by_cases hk : k ∈ s.monitorOrder
  · rw [if_pos hk]
  · rw [if_neg hk]
    cases hf : s.face k with
    | none => rfl
    | some f => exact absurd ((h.mem k).2 ⟨f, hf⟩) hk

theorem keepsFirst_retireLast (ctx : HotplugContext) (h : s.Ordered) {key : MonitorKey} {front : List MonitorKey}
    (ho : s.monitorOrder = front ++ [key]) :
    (retireMonitor ctx { s with monitorOrder := front } key).monitorOrder = front ∧
      (∀ k, (retireMonitor ctx { s with monitorOrder := front } key).face k = if k ∈ front then s.face k else none) ∧
      (retireMonitor ctx { s with monitorOrder := front } key).Ordered := by
  have hnd := h.nodup
  rw [ho, nodup_append] at hnd
  obtain ⟨hfront, -, hdisj⟩ := hnd
  have hkey : key ∉ front := fun hk => hdisj key hk key (mem_singleton_self key) rfl
  have horder : (retireMonitor ctx { s with monitorOrder := front } key).monitorOrder = front := by
    rw [monitorOrder_retireMonitor]
    exact filter_eq_self.2 fun k hk => by
      have : k ≠ key := fun e => hkey (e ▸ hk)
      simp [this]
  have hface : ∀ k, (retireMonitor ctx { s with monitorOrder := front } key).face k =
      if k ∈ front then s.face k else none := by
    intro k
    rw [face_retireMonitor]
    show (if k = key then none else s.face k) = _
    by_cases hk : k = key
    · rw [if_pos hk, if_neg (hk ▸ hkey)]
    · rw [if_neg hk]
      by_cases hf : k ∈ front
      · rw [if_pos hf]
      · rw [if_neg hf]
        cases hs : s.face k with
        | none => rfl
        | some f =>
          have hm := (h.mem k).2 ⟨f, hs⟩
          rw [ho, mem_append, mem_singleton] at hm
          exact absurd (hm.resolve_left hf) hk
  refine ⟨horder, hface, ⟨by rw [horder]; exact hfront, fun k => ?_⟩⟩
  rw [horder, hface]
  by_cases hk : k ∈ front
  · rw [if_pos hk]
    exact iff_of_true hk ((h.mem k).1 (ho ▸ mem_append_left _ hk))
  · simp [hk]

theorem keepsFirst_removeExcessLoop (ctx : HotplugContext) (n : Nat) : ∀ (fuel : Nat) {s : WMState}, s.Ordered →
    s.monitorOrder.length ≤ fuel → KeepsFirst s (removeExcessLoop ctx n fuel s) n
  | 0, s, h, hlen => keepsFirst_all h (by omega)
  | fuel + 1, s, h, hlen => by
    unfold removeExcessLoop
    split
    · rename_i hn
      exact keepsFirst_all h hn
    · rename_i hn
      rcases eq_nil_or_concat s.monitorOrder with he | ⟨front, key, ho⟩
      · rw [he] at hn
        exact absurd (Nat.zero_le n) hn
      · rw [concat_eq_append] at ho
        have hl : s.monitorOrder.getLast? = some key := by rw [ho]; simp
        have hd : s.monitorOrder.dropLast = front := by rw [ho]; simp
        rw [hl, hd]
        obtain ⟨horder, hface, hord⟩ := keepsFirst_retireLast ctx h ho
        have hfl : front.length + 1 = s.monitorOrder.length := by rw [ho]; simp
        have hrec := keepsFirst_removeExcessLoop ctx n fuel hord (by rw [horder]; omega)
        have htake : s.monitorOrder.take n = front.take n := by
          rw [ho, take_append_of_le_length (by omega)]
        refine ⟨by rw [hrec.order, horder, htake], fun k => ?_⟩
        rw [hrec.face k, horder, htake, hface]
        by_cases hk : k ∈ front.take n
        · rw [if_pos hk, if_pos (mem_of_mem_take hk), if_pos hk]
        · rw [if_neg hk, if_neg hk]

theorem keepsFirst_removeExcessMonitors (h : s.Ordered) (ctx : HotplugContext) (n : Nat) :
    KeepsFirst s (removeExcessMonitors ctx s n) n :=
  keepsFirst_removeExcessLoop ctx n _ h (le_refl _)

theorem KeepsFirst.ordered {s' : WMState} {n : Nat} (hk : KeepsFirst s s' n) (h : s.Ordered) : s'.Ordered := by
  refine ⟨hk.order ▸ h.nodup.sublist (take_sublist _ _), fun k => ?_⟩
  rw [hk.order, hk.face]
  by_cases hm : k ∈ s.monitorOrder.take n
  · rw [if_pos hm]
    exact iff_of_true hm ((h.mem k).1 (mem_of_mem_take hm))
  · simp [hm]

end Remove

/-! ## Monitors that come -/

theorem applyPertagContext_num (m : WMMonitor) (idx : Nat) : (m.applyPertagContext idx).num = m.num := by
  unfold applyPertagContext
  cases m.pertag <;> rfl

theorem createmonNumbered_num (cfg : MonitorConfig) (num : Int) (connector : Option String) :
    (createmonNumbered cfg num connector).num = num := by
  unfold createmonNumbered seedPertagFromConfig
  simp only
  split
  · rfl
  · exact applyPertagContext_num _ _

section Create

variable {s : WMState} {key : MonitorKey}

theorem face_insertMonitor (s : WMState) (key k : MonitorKey) (m : WMMonitor) :
    (insertMonitor s key m).face k = if k = key then some (m.num, m.rect) else s.face k := by
  unfold WMState.face insertMonitor
  simp only [KeyMap.get?_insert]
  split <;> rfl

theorem ordered_insertMonitor (h : s.Ordered) (hk : s.face key = none) (m : WMMonitor) :
    (insertMonitor s key m).Ordered := by
  have hnew : key ∉ s.monitorOrder := by
    intro hm
    obtain ⟨f, hf⟩ := (h.mem key).1 hm
    rw [hk] at hf
    cases hf
  constructor
  · show (s.monitorOrder ++ [key]).Nodup
    rw [nodup_append]
    refine ⟨h.nodup, nodup_singleton key, ?_⟩
    rintro a ha b hb rfl
    exact hnew (mem_singleton.1 hb ▸ ha)
  · intro k
    show k ∈ s.monitorOrder ++ [key] ↔ _
    rw [mem_append, mem_singleton, face_insertMonitor, h.mem k]
    by_cases hkk : k = key
    · simp [hkk]
    · simp [hkk]

theorem createMonitors_spec (cfg : MonitorConfig) : ∀ (new : List (MonitorKey × Option String)) {s : WMState},
    s.Ordered → (new.map Prod.fst).Nodup → (∀ k ∈ new.map Prod.fst, s.face k = none) →
    (createMonitors cfg s new).Ordered ∧ (createMonitors cfg s new).monitorOrder = s.monitorOrder ++ new.map Prod.fst ∧
      (∀ k, k ∉ new.map Prod.fst → (createMonitors cfg s new).face k = s.face k) ∧
      ∀ i k, (new.map Prod.fst)[i]? = some k →
        ((createMonitors cfg s new).face k).map Prod.fst = some (asI32 (s.monitorOrder.length + i))
  | [], s, h, _, _ => ⟨h, by simp [createMonitors], fun _ _ => rfl, fun i k hk => by simp at hk⟩
  | (key, connector) :: new, s, h, hnd, hfree => by
    rw [map_cons, nodup_cons] at hnd
    have hkey : s.face key = none := hfree key (by simp)
    have h1 : (insertSeededMonitor cfg s key connector).Ordered := ordered_insertMonitor h hkey _
    have hface : ∀ k, k ≠ key → (insertSeededMonitor cfg s key connector).face k = s.face k := by
      intro k hk
      rw [insertSeededMonitor, face_insertMonitor, if_neg hk]
    have hfree1 : ∀ k ∈ new.map Prod.fst, (insertSeededMonitor cfg s key connector).face k = none := by
      intro k hk
      rw [hface k (fun e => hnd.1 (e ▸ hk))]
      exact hfree k (mem_cons_of_mem _ hk)
    obtain ⟨hord, horder, hold, hnew⟩ := createMonitors_spec cfg new h1 hnd.2 hfree1
    refine ⟨hord, ?_, ?_, ?_⟩
    · rw [createMonitors, horder]
      show (s.monitorOrder ++ [key]) ++ new.map Prod.fst = _
      rw [append_assoc]
      rfl
    · intro k hk
      rw [map_cons, mem_cons, not_or] at hk
      rw [createMonitors, hold k hk.2, hface k hk.1]
    · intro i k hi
      rw [createMonitors]
      cases i with
      | zero =>
        rw [map_cons, getElem?_cons_zero, some.injEq] at hi
        subst hi
        rw [hold key hnd.1, insertSeededMonitor, face_insertMonitor, if_pos rfl, map_some, createmonNumbered_num]
        rfl
      | succ i =>
        rw [map_cons, getElem?_cons_succ] at hi
        rw [hnew i k hi]
        show some (asI32 ((s.monitorOrder ++ [key]).length + i)) = _
        rw [length_append, length_singleton, Nat.add_right_comm, Nat.add_assoc]

end Create

/-! ## Monitors that are refreshed -/

/-- A monitor at `position` takes its position as its number when its rectangle changes. -/
def renumber (position : Nat) (target : Option Rect) (f : Int × Rect) : Int × Rect :=
  match target with
  | none => f
  | some target => if f.2 = target then f else (asI32 position, target)

section Refresh

variable {s : WMState} {ctx : HotplugContext}

theorem refreshMonitor_spec (ctx : HotplugContext) (s : WMState) (position : Nat) (num : Int) (target : Rect) :
    (refreshMonitor ctx s position num target).1.monitorOrder = s.monitorOrder ∧
      ∀ k, (refreshMonitor ctx s position num target).1.face k =
        if s.monitorOrder[position]? = some k then
          (s.face k).map fun f => if f.2 = target then f else (num, target)
        else s.face k := by
  unfold refreshMonitor
  cases hk : s.monitorOrder[position]? with
  | none => exact ⟨rfl, fun k => by simp⟩
  | some key =>
    simp only [some.injEq]
    cases hm : s.monitors.get? key with
    | none =>
      have hf : s.face key = none := by rw [WMState.face, hm]; rfl
      refine ⟨rfl, fun k => ?_⟩
      by_cases e : key = k
      · rw [if_pos e, ← e, hf]
        rfl
      · rw [if_neg e]
    | some m =>
      have hf : s.face key = some (m.num, m.rect) := by rw [WMState.face, hm]; rfl
      simp only
      by_cases hr : m.rect = target
      · rw [if_pos hr]
        refine ⟨rfl, fun k => ?_⟩
        by_cases e : key = k
        · rw [if_pos e, ← e, hf, map_some, if_pos hr]
        · rw [if_neg e]
      · rw [if_neg hr]
        have same := SameFaces.placeClients ctx
          { s with monitors := s.monitors.modify key fun m => setRect { m with num := num } target }
          (clientsOwnedByMonitor s key)
        refine ⟨same.order, fun k => ?_⟩
        rw [same.face, WMState.face, KeyMap.get?_modify]
        by_cases e : k = key
        · subst e
          rw [if_pos rfl, if_pos rfl, hm, hf]
          show _ = some (if m.rect = target then _ else _)
          rw [if_neg hr]
          rfl
        · rw [if_neg e, if_neg (Ne.symm e)]
          rfl

theorem refreshMonitors_spec (ctx : HotplugContext) : ∀ (targets : List Rect) (position : Nat) {s : WMState},
    s.monitorOrder.Nodup → (refreshMonitors ctx position s targets).1.monitorOrder = s.monitorOrder ∧
      (∀ k, k ∉ s.monitorOrder → (refreshMonitors ctx position s targets).1.face k = s.face k) ∧
      ∀ i k, s.monitorOrder[i]? = some k → (refreshMonitors ctx position s targets).1.face k =
        (s.face k).map (renumber i (if position ≤ i then targets[i - position]? else none))
  | [], position, s, _ => by
    refine ⟨rfl, fun _ _ => rfl, fun i k _ => ?_⟩
    have : (if position ≤ i then ([] : List Rect)[i - position]? else none) = none := by simp
    rw [this]
    show s.face k = (s.face k).map fun f => f
    rw [Option.map_id']
  | target :: targets, position, s, hnd => by
    obtain ⟨horder, hface⟩ := refreshMonitor_spec ctx s position (asI32 position) target
    have hnd1 : (refreshMonitor ctx s position (asI32 position) target).1.monitorOrder.Nodup := horder ▸ hnd
    obtain ⟨horder', hother, hrest⟩ := refreshMonitors_spec ctx targets (position + 1) hnd1
    rw [horder] at horder' hother hrest
    unfold refreshMonitors
    refine ⟨horder', fun k hk => ?_, fun i k hi => ?_⟩
    · rw [hother k hk, hface, if_neg]
      exact fun e => hk (mem_of_getElem? e)
    · rw [hrest i k hi, hface]
      have elsewhere : i ≠ position → s.monitorOrder[position]? ≠ some k := by
        intro hne e
        obtain ⟨hlt, -⟩ := List.getElem?_eq_some_iff.1 hi
        exact hne ((getElem?_inj hlt hnd).1 (hi.trans e.symm))
      rcases Nat.lt_trichotomy i position with hlt | heq | hgt
      · rw [if_neg (elsewhere (by omega)), if_neg (by omega), if_neg (by omega)]
      · subst heq
        rw [if_pos hi, if_neg (by omega), if_pos (le_refl _), Nat.sub_self, getElem?_cons_zero, Option.map_map]
        rfl
      · rw [if_neg (elsewhere (by omega)), if_pos (by omega), if_pos (by omega)]
        have hsub : i - position = (i - (position + 1)) + 1 := by omega
        rw [hsub, getElem?_cons_succ]

/-- The number the monitor at a position has after a refresh: its own when there is one and it keeps
its rectangle, else the position. -/
def refreshedNumber (s : WMState) (planned : List OutputInfo) (i : Nat) : Int :=
  match s.monitorOrder[i]?.bind s.face, planned[i]? with
  | some f, some o => if f.2 = o.rect then f.1 else asI32 i
  | _, _ => asI32 i

/-- Keys the slot map can hand out: all different, and no live monitor has one. -/
structure FreshKeys (s : WMState) (fresh : Nat → MonitorKey) : Prop where
  inj : Function.Injective fresh
  free : ∀ i, s.face (fresh i) = none

theorem setupMultipleMonitors_eq (cfg : MonitorConfig) (ctx : HotplugContext) (s : WMState) (fresh : Nat → MonitorKey)
    (planned : List OutputInfo) : setupMultipleMonitors cfg ctx s fresh planned =
      let r := refreshMonitors ctx 0 (createMonitors cfg s
        ((planned.drop s.monitorOrder.length).zipIdx.map fun p => (fresh p.2, p.1.seedKey))) (planned.map (·.rect))
      if planned.length < s.monitorOrder.length then (removeExcessMonitors ctx r.1 planned.length, true)
      else (r.1, decide (s.monitorOrder.length < planned.length) || r.2) := rfl

theorem setupMultipleMonitors_spec (cfg : MonitorConfig) (ctx : HotplugContext) (h : s.Ordered) {fresh : Nat → MonitorKey}
    (hf : FreshKeys s fresh) (planned : List OutputInfo) :
    (setupMultipleMonitors cfg ctx s fresh planned).1.Ordered ∧
      (setupMultipleMonitors cfg ctx s fresh planned).1.monitorOrder.length = planned.length ∧
      ∀ i k, (setupMultipleMonitors cfg ctx s fresh planned).1.monitorOrder[i]? = some k →
        ((setupMultipleMonitors cfg ctx s fresh planned).1.face k).map Prod.fst = some (refreshedNumber s planned i) := by
  generalize hnew : ((planned.drop s.monitorOrder.length).zipIdx.map fun p => (fresh p.2, p.1.seedKey)) = new
  have hkeys : new.map Prod.fst = (range (planned.length - s.monitorOrder.length)).map fresh := by
    rw [← hnew, List.map_map]
    apply ext_getElem
    · simp
    · intro i h1 h2
      simp
  have hnd : (new.map Prod.fst).Nodup := by
    rw [hkeys]
    exact nodup_range.map hf.inj
  have hfree : ∀ k ∈ new.map Prod.fst, s.face k = none := by
    intro k hk
    rw [hkeys] at hk
    obtain ⟨i, -, rfl⟩ := List.mem_map.1 hk
    exact hf.free i
  obtain ⟨hord1, horder1, hold1, hnum1⟩ := createMonitors_spec cfg new h hnd hfree
  generalize hs1 : createMonitors cfg s new = s1 at hord1 horder1 hold1 hnum1
  obtain ⟨horder2, hother2, hface2⟩ := refreshMonitors_spec ctx (planned.map (·.rect)) 0 hord1.nodup
  generalize hs2 : (refreshMonitors ctx 0 s1 (planned.map (·.rect))).1 = s2 at horder2 hother2 hface2
  have hord2 : s2.Ordered := by
    refine ⟨by rw [horder2]; exact hord1.nodup, fun k => ?_⟩
    rw [horder2]
    by_cases hk : k ∈ s1.monitorOrder
    · obtain ⟨i, hi⟩ := mem_iff_getElem?.1 hk
      obtain ⟨f, hfk⟩ := (hord1.mem k).1 hk
      refine iff_of_true hk ?_
      rw [hface2 i k hi, hfk]
      exact ⟨_, rfl⟩
    · rw [hother2 k hk]
      exact hord1.mem k
  -- the numbers before the tail is cut
  have hnumber : ∀ i k, i < planned.length → s2.monitorOrder[i]? = some k →
      (s2.face k).map Prod.fst = some (refreshedNumber s planned i) := by
    intro i k hi hk
    rw [horder2] at hk
    rw [hface2 i k hk, if_pos (Nat.zero_le i), Nat.sub_zero, getElem?_map, getElem?_eq_getElem hi]
    rw [horder1] at hk
    unfold refreshedNumber
    rw [getElem?_eq_getElem hi]
    by_cases hold : i < s.monitorOrder.length
    · rw [getElem?_append_left hold] at hk
      have hk1 : k ∉ new.map Prod.fst := by
        intro hm
        obtain ⟨f, hfk⟩ := (h.mem k).1 (mem_of_getElem? hk)
        rw [hfree k hm] at hfk
        cases hfk
      obtain ⟨f, hfk⟩ := (h.mem k).1 (mem_of_getElem? hk)
      rw [hold1 k hk1, hk, bind_some, hfk]
      show some (renumber i (some planned[i].rect) f).1 = some (if f.2 = planned[i].rect then f.1 else asI32 i)
      unfold renumber
      simp only
      split <;> rfl
    · rw [getElem?_append_right (by omega)] at hk
      have hnum := hnum1 _ k hk
      rw [show s.monitorOrder.length + (i - s.monitorOrder.length) = i by omega] at hnum
      rw [getElem?_eq_none (by omega)]
      cases hfk : s1.face k with
      | none => rw [hfk] at hnum; cases hnum
      | some f =>
        rw [hfk, map_some, some.injEq] at hnum
        show some (renumber i (some planned[i].rect) f).1 = some (asI32 i)
        unfold renumber
        simp only
        split
        · rw [hnum]
        · rfl
  have hlen1 : s1.monitorOrder.length = max s.monitorOrder.length planned.length := by
    rw [horder1, length_append, hkeys, length_map, length_range]
    omega
  have hresult : (setupMultipleMonitors cfg ctx s fresh planned).1 =
      if planned.length < s.monitorOrder.length then removeExcessMonitors ctx s2 planned.length else s2 := by
    rw [setupMultipleMonitors_eq, hnew, hs1]
    dsimp only
    rw [hs2]
    split <;> rfl
  rw [hresult]
  split
  · have hk := keepsFirst_removeExcessMonitors hord2 ctx planned.length
    refine ⟨hk.ordered hord2, ?_, fun i k hi => ?_⟩
    · rw [hk.order, length_take, horder2, hlen1]
      omega
    · rw [hk.order] at hi
      have hilt : i < planned.length := by
        obtain ⟨hlt, -⟩ := List.getElem?_eq_some_iff.1 hi
        rw [length_take] at hlt
        omega
      rw [hk.face, if_pos (mem_of_getElem? hi)]
      rw [getElem?_take_of_lt hilt] at hi
      exact hnumber i k hilt hi
  · refine ⟨hord2, by rw [horder2, hlen1]; omega, fun i k hi => ?_⟩
    have hilt : i < planned.length := by
      obtain ⟨hlt, -⟩ := List.getElem?_eq_some_iff.1 hi
      rw [horder2, hlen1] at hlt
      omega
    exact hnumber i k hilt hi

end Refresh

end Jwm
