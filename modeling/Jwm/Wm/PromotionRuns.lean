/-
Runs of promote and un-promote steps. Each step moves one member of the resting order out or back
in; the committed maximize plan of the source is exactly such a step.
-/
import Jwm.Wm.Promotion

namespace Jwm

open List Option WMState ClientState

/-! ## The committed client -/

section Commit

variable (c : WMClient) (plan : MaximizePlan) (slot : RestingSlot) (anchor : Option ClientKey)

theorem commitClient_promote (h : plan.axes.any = true) : (commitClient c plan slot true false false anchor).state =
      { c.state.setMaximizedAxes plan.axes with
        maximizeRestoreTiled := true, maximizeRestoreAnchor := anchor, isFloating := true, isDragFloating := false } := by
  simp [commitClient, h]

theorem commitClient_retile (h : plan.axes.any = false) : (commitClient c plan slot false true false none).state =
      { c.state.setMaximizedAxes plan.axes with
        maximizeRestoreTiled := false, maximizeRestoreAnchor := none, isFloating := false, isDragFloating := false } := by
  simp [commitClient, h]

theorem commitClient_retile_isFloating : (commitClient c plan slot false true false none).state.isFloating = false := by
  unfold commitClient
  cases plan.axes.any <;> rfl

end Commit

/-! ## Steps -/

/-- One maximize promotion or return on `mon`. -/
inductive PromotionStep (mon : MonitorKey) : WMState → WMState → Prop where
  /-- A listed tile is promoted: an axis is set, its anchor recorded, and it joins the floating tail. -/
  | promote {s : WMState} {list : List ClientKey} {key : ClientKey} {c : WMClient} (plan : MaximizePlan)
      (slot : RestingSlot) (hl : s.monitorClients.get? mon = some list) (hk : key ∈ list)
      (hc : s.clients.get? key = some c) (hf : c.state.isFloating = false) (ha : plan.axes.any = true) :
      PromotionStep mon s (promote s key plan slot)
  /-- A listed promoted window gives up its last axis and re-tiles. -/
  | unpromote {s : WMState} {list : List ClientKey} {key : ClientKey} {c : WMClient} (plan : MaximizePlan)
      (slot : RestingSlot) (hl : s.monitorClients.get? mon = some list) (hk : key ∈ list)
      (hc : s.clients.get? key = some c) (hp : c.state.promoted = true) (ha : plan.axes.any = false) :
      PromotionStep mon s (unpromote s key plan slot)

section Steps

variable {s : WMState} {mon : MonitorKey} {tiles floats out : List ClientKey} {k : ClientKey}

theorem TileAt.congr {s s' : WMState} (h : TileAt s mon k) (e : s'.clients.get? k = s.clients.get? k) :
    TileAt s' mon k := by
  unfold TileAt; rw [e]; exact h

theorem FloatAt.congr {s s' : WMState} (h : FloatAt s mon k) (e : s'.clients.get? k = s.clients.get? k) :
    FloatAt s' mon k := by
  unfold FloatAt; rw [e]; exact h

theorem PromotedAt.congr {s s' : WMState} {a : Option ClientKey} (h : PromotedAt s mon k a)
    (e : s'.clients.get? k = s.clients.get? k) : PromotedAt s' mon k a := by
  unfold PromotedAt; rw [e]; exact h

theorem Resting.promote (h : Resting s mon tiles floats out) (ht : k ∈ tiles) (hk : k ∉ out) (plan : MaximizePlan)
    (slot : RestingSlot) (ha : plan.axes.any = true) :
    Resting (promote s k plan slot) mon tiles floats (out ++ [k]) := by
  obtain ⟨c, hc, hm, hf⟩ := h.tile k ht hk
  obtain ⟨l, r, e⟩ := append_of_mem ht
  have hn := h.tilesNodup
  have hmem : ∀ x, x ∈ out ++ [k] ↔ x ∈ out ∨ x = k := by simp
  have hanchor : (s.monOf k).bind (restoreAnchorAfter s · k) = nextIn tiles k := by
    simp [monOf, hc, hm, h.restoreAnchorAfter_eq ht hk]
  let c' := commitClient c plan slot true false false (nextIn tiles k)
  let s1 := s.modifyClient k fun client => commitClient client plan slot true false false (nextIn tiles k)
  have hget : ∀ x, s1.clients.get? x = if x = k then some c' else s.clients.get? x := modifyClient_get?_of hc _
  have hst := commitClient_promote c plan slot (nextIn tiles k) ha
  have hlist : (tiles.filter (· ∉ out) ++ floats ++ out).erase k ++ [k] =
      tiles.filter (· ∉ out ++ [k]) ++ floats ++ (out ++ [k]) := by
    have hkl : k ∉ l.filter (· ∉ out) := fun hx => nodup_cons_not_mem_left (e ▸ hn) (mem_filter.1 hx).1
    rw [e, filter_in_of hk, filter_out_of (e ▸ hn) hmem]
    simp only [append_assoc, cons_append]
    rw [erase_append_right _ hkl, erase_cons_head]
    simp
  have heq : Jwm.promote s k plan slot =
      s1.setList mon (tiles.filter (· ∉ out ++ [k]) ++ floats ++ (out ++ [k])) := by
    have hc1 : s1.clients.get? k = some c' := by rw [hget, if_pos rfl]
    have hfl : c'.state.isFloating = true := congrArg isFloating hst
    unfold Jwm.promote
    simp only [hanchor]
    rw [reorder_eq hc1 hm h.list (h.mem_list ht), if_pos hfl, hlist]
  rw [heq]
  refine ⟨?_, h.nodup, ?_, ?_, fun x hx ho => ?_, fun x hx => ?_, fun x hx => ?_⟩
  · rw [setList_get?, if_pos rfl]
    show (s.monitorClients.get? mon).map _ = _
    rw [h.list]; rfl
  · refine nodup_append.2 ⟨h.outNodup, nodup_singleton _, fun a ha b hb => ?_⟩
    rw [mem_singleton] at hb
    exact fun eq => hk (hb ▸ eq ▸ ha)
  · intro x hx
    rcases (hmem x).1 hx with hx | rfl
    · exact h.outSub x hx
    · exact ht
  · rw [hmem, not_or] at ho
    exact (h.tile x hx ho.1).congr (by rw [setList_clients, hget, if_neg ho.2])
  · have hne : x ≠ k := fun eq => h.not_float ht (eq ▸ hx)
    exact (h.float x hx).congr (by rw [setList_clients, hget, if_neg hne])
  · rcases (hmem x).1 hx with hx | rfl
    · have hne : x ≠ k := fun eq => hk (eq ▸ hx)
      exact (h.promoted x hx).congr (by rw [setList_clients, hget, if_neg hne])
    · refine ⟨c', by rw [setList_clients, hget, if_pos rfl], hm, ?_⟩
      rw [show c'.state = _ from hst]
      exact ⟨rfl, rfl, ha, rfl⟩

/-! ### Returning -/

section Return

variable {s1 : WMState} {l r : List ClientKey} {c' : WMClient}

theorem Resting.mem_out_iff (_ : Resting s mon tiles floats out) (hk : k ∈ out) (x : ClientKey) :
    x ∈ out ↔ x ∈ out.erase k ∨ x = k := by
  by_cases hx : x = k
  · simp [hx, hk]
  · simp [hx, mem_erase_of_ne hx]

theorem Resting.not_mem_after (h : Resting s mon tiles floats out) (e : tiles = l ++ k :: r) : k ∉ r :=
  (nodup_cons.1 (nodup_append.1 (e ▸ h.tilesNodup)).2.1).1

section

variable (h : Resting s mon tiles floats out) (hk : k ∈ out) (e : tiles = l ++ k :: r)
include h hk e

/-- The list while `k` is out, split at the slot of `k`. -/
theorem Resting.list_around : tiles.filter (· ∉ out) ++ floats ++ out =
      l.filter (· ∉ out.erase k) ++ r.filter (· ∉ out.erase k) ++ floats ++ out := by
  have hn := h.tilesNodup
  rw [e, filter_out_of (e ▸ hn) (h.mem_out_iff hk)]

theorem Resting.erase_around : (l.filter (· ∉ out.erase k) ++ r.filter (· ∉ out.erase k) ++ floats ++ out).erase k =
      l.filter (· ∉ out.erase k) ++ r.filter (· ∉ out.erase k) ++ floats ++ out.erase k := by
  refine erase_append_right _ ?_
  simp only [mem_append, not_or]
  refine ⟨⟨fun hx => ?_, fun hx => ?_⟩, h.not_float (h.outSub k hk)⟩
  · exact nodup_cons_not_mem_left (e ▸ h.tilesNodup) (mem_filter.1 hx).1
  · exact h.not_mem_after e (mem_filter.1 hx).1

section

variable (hother : ∀ x, x ≠ k → s1.clients.get? x = s.clients.get? x)
include hother

/-- The anchors lead to the first member behind `k` that is in. -/
theorem Resting.restingAnchor_return :
    restingAnchor s1 (l.filter (· ∉ out.erase k) ++ r.filter (· ∉ out.erase k) ++ floats ++ out) k (nextIn tiles k) =
      (r.filter (· ∉ out.erase k)).head? := by
  have hcongr : r.filter (· ∉ out) = r.filter (· ∉ out.erase k) := filter_congr fun x hx => by
    have hxk : x ≠ k := fun eq => h.not_mem_after e (eq ▸ hx)
    simp [mem_erase_of_ne hxk]
  rw [← h.list_around hk e, h.restingAnchor_eq e hother, ← head?_filter, hcongr]

/-- Behind `k` nobody is in: it returns as the last tile. -/
theorem Resting.return_last (hc : s1.clients.get? k = some c')
    (hm : c'.mon = some mon) (hf : c'.state.isFloating = false) (hl : s1.monitorClients.get? mon = s.monitorClients.get? mon)
    (hr : r.filter (· ∉ out.erase k) = []) :
    reorderClientInMonitorGroups s1 k =
      s1.setList mon (l.filter (· ∉ out.erase k) ++ [k] ++ floats ++ out.erase k) := by
  have hk' : k ∉ out.erase k := fun hx => (List.Nodup.not_mem_erase h.outNodup) hx
  have ht := h.outSub k hk
  have hflo : ∀ x, x ≠ k → s1.isClientFloating x = s.isClientFloating x := fun x hx => by
    unfold isClientFloating
    rw [hother x hx]
  rw [h.list, h.list_around hk e] at hl
  rw [reorder_eq hc hm hl (mem_append_right _ hk), hf, if_neg (by simp), h.erase_around hk e, hr]
  rw [show l.filter (· ∉ out.erase k) ++ [] ++ floats ++ out.erase k =
    l.filter (· ∉ out.erase k) ++ (floats ++ out.erase k) by simp, insert_boundary]
  · simp
  · intro x hx
    obtain ⟨hxl, hxo⟩ := mem_filter.1 hx
    have hxk : x ≠ k := by
      rintro rfl
      exact nodup_cons_not_mem_left (e ▸ h.tilesNodup) hxl
    have hxo' : x ∉ out := fun hx' => ((h.mem_out_iff hk x).1 hx').elim (by simpa using hxo) hxk
    obtain ⟨d, hd, -, hdf⟩ := h.tile x (by rw [e]; simp [hxl]) hxo'
    rw [hflo x hxk, isClientFloating, hd]
    simpa using hdf
  · intro x hx
    have hxk : x ≠ k := fun eq => (mem_append.1 (eq ▸ hx)).elim (h.not_float ht) hk'
    rw [hflo x hxk, isClientFloating]
    rcases mem_append.1 hx with hx | hx
    · obtain ⟨d, hd, -, hdf, -⟩ := h.float x hx
      simpa [hd] using hdf
    · obtain ⟨d, hd, -, hdf, -⟩ := h.promoted x (mem_of_mem_erase hx)
      simpa [hd] using hdf

/-- Behind `k` the member `t` is in: `k` returns right before it. -/
theorem Resting.return_before (hl : s1.monitorClients.get? mon = s.monitorClients.get? mon) {t : ClientKey} {r' : List ClientKey}
    (hr : r.filter (· ∉ out.erase k) = t :: r') :
    retileBeforeAnchor s1 mon k (nextIn tiles k) =
      some (s1.setList mon (l.filter (· ∉ out.erase k) ++ k :: t :: r' ++ floats ++ out.erase k)) := by
  have hanchor := h.restingAnchor_return hk e hother
  have htl : t ∉ l.filter (· ∉ out.erase k) := by
    have hsub : (l.filter (· ∉ out.erase k) ++ k :: r.filter (· ∉ out.erase k)).Sublist tiles := by
      rw [e]
      exact List.Sublist.append filter_sublist (List.Sublist.cons_cons _ filter_sublist)
    have hnd := hsub.nodup h.tilesNodup
    rw [hr] at hnd
    exact fun hx => (nodup_append.1 hnd).2.2 t hx t (by simp) rfl
  rw [h.list, h.list_around hk e] at hl
  rw [hr, head?_cons, ← hr] at hanchor
  rw [retile_eq hl hanchor (mem_append_right _ hk) (b := r' ++ floats ++ out.erase k)
    (by rw [h.erase_around hk e, hr]; simp) htl]
  simp

end

end

end Return

theorem Resting.unpromote (h : Resting s mon tiles floats out) (hk : k ∈ out) (plan : MaximizePlan)
    (slot : RestingSlot) (ha : plan.axes.any = false) :
    Resting (unpromote s k plan slot) mon tiles floats (out.erase k) := by
  obtain ⟨c, hc, hm, -, -, -, hanchor⟩ := h.promoted k hk
  have ht := h.outSub k hk
  obtain ⟨l, r, e⟩ := append_of_mem ht
  have hmem := h.mem_out_iff hk
  have hk' : k ∉ out.erase k := fun hx => (List.Nodup.not_mem_erase h.outNodup) hx
  let c' := commitClient c plan slot false true false none
  let s1 := s.modifyClient k fun client => commitClient client plan slot false true false none
  have hget : ∀ x, s1.clients.get? x = if x = k then some c' else s.clients.get? x := modifyClient_get?_of hc _
  have hother : ∀ x, x ≠ k → s1.clients.get? x = s.clients.get? x := fun x hx => by rw [hget, if_neg hx]
  have hc1 : s1.clients.get? k = some c' := by rw [hget, if_pos rfl]
  have hfl : c'.state.isFloating = false := congrArg isFloating (commitClient_retile c plan slot ha)
  have hl : s1.monitorClients.get? mon = s.monitorClients.get? mon := rfl
  have heq : Jwm.unpromote s k plan slot =
      s1.setList mon (tiles.filter (· ∉ out.erase k) ++ floats ++ out.erase k) := by
    have hmon : s1.monOf k = some mon := by
      simp only [monOf, hc1]
      exact hm
    unfold Jwm.unpromote
    simp only [hc, bind_some, hanchor]
    have hin : tiles.filter (· ∉ out.erase k) =
        l.filter (· ∉ out.erase k) ++ k :: r.filter (· ∉ out.erase k) := by rw [e, filter_in_of hk']
    rw [hmon, bind_some, hin]
    cases hr : r.filter (· ∉ out.erase k) with
    | nil =>
      have hnone : retileBeforeAnchor s1 mon k (nextIn tiles k) = none := by
        have hno := h.restingAnchor_return hk e hother
        rw [← h.list_around hk e, hr, head?_nil] at hno
        simp only [retileBeforeAnchor, hl, h.list, hno]
      rw [hnone, getD_none, h.return_last hk e hother hc1 hm hfl hl hr]
    | cons t r' => rw [h.return_before hk e hother hl hr, getD_some]
  rw [heq]
  refine ⟨?_, h.nodup, h.outNodup.erase k, fun x hx => h.outSub x (mem_of_mem_erase hx), fun x hx ho => ?_,
    fun x hx => ?_, fun x hx => ?_⟩
  · rw [setList_get?, if_pos rfl, hl, h.list]
    rfl
  · by_cases hxk : x = k
    · subst hxk
      exact ⟨c', by rw [setList_clients, hc1], hm, hfl⟩
    · exact (h.tile x hx fun hx' => ((hmem x).1 hx').elim ho hxk).congr (by rw [setList_clients, hother x hxk])
  · have hne : x ≠ k := fun eq => h.not_float ht (eq ▸ hx)
    exact (h.float x hx).congr (by rw [setList_clients, hother x hne])
  · have hne : x ≠ k := fun eq => hk' (eq ▸ hx)
    exact (h.promoted x (mem_of_mem_erase hx)).congr (by rw [setList_clients, hother x hne])

end Steps

/-! ## The source's commit is such a step -/

section Bridge

variable {s : WMState} {mon : MonitorKey} {list : List ClientKey} {key : ClientKey} {c : WMClient} {plan : MaximizePlan}
  (slot : RestingSlot) (hl : s.monitorClients.get? mon = some list) (hk : key ∈ list)
  (hc : s.clients.get? key = some c) (hm : c.mon = some mon)
include hl hk hc hm

theorem commitMaximize_promote (hf : c.state.isFloating = false) (ha : plan.axes.any = true) :
    ∃ s', commitMaximize s key .promote plan slot = some s' ∧ PromotionStep mon s s' := by
  refine ⟨_, ?_, .promote plan slot hl hk hc hf ha⟩
  have hsame : ∀ b a, (s.modifyClient key fun _ => commitClient c plan slot true false b a) =
      s.modifyClient key fun client => commitClient client plan slot true false false a := fun b a =>
    congrArg (fun clients => ({ s with clients } : WMState)) (KeyMap.modify_congr hc rfl)
  have hfloats : ∀ b a, (commitClient c plan slot true false b a).state.isFloating = true := fun b a =>
    congrArg isFloating (commitClient_promote c plan slot a ha)
  unfold commitMaximize promote monOf
  simp [hc, hm, hl, hk, ha, hf, hsame, hfloats]

/-- While fullscreen or PiP owns the floating flag the list is left alone. -/
theorem commitMaximize_unpromote (hp : c.state.promoted = true) (ha : plan.axes.any = false)
    (hmode : (c.state.isFullscreen || c.state.isPip) = false) :
    ∃ s', commitMaximize s key .apply plan slot = some s' ∧ PromotionStep mon s s' := by
  refine ⟨_, ?_, .unpromote plan slot hl hk hc hp ha⟩
  have hsame : (s.modifyClient key fun _ => commitClient c plan slot false true false none) =
      s.modifyClient key fun client => commitClient client plan slot false true false none :=
    congrArg (fun clients => ({ s with clients } : WMState)) (KeyMap.modify_congr hc rfl)
  have hmon : (commitClient c plan slot false true false none).mon = some mon := hm
  obtain ⟨htiled, hfloat⟩ := Bool.and_eq_true_iff.1 hp
  have happly : (MaximizeAdmission.apply == .promote) = false := rfl
  unfold commitMaximize unpromote monOf
  simp [hc, hm, hl, hk, ha, htiled, hfloat, hmode, happly, hsame, hmon, modifyClient_get?_of hc, commitClient_retile_isFloating]

end Bridge

/-! ## Runs -/

section Runs

variable {s s' : WMState} {mon : MonitorKey} {tiles floats out : List ClientKey}

section

variable {k : ClientKey} {c : WMClient} (h : Resting s mon tiles floats out) (hk : k ∈ tiles.filter (· ∉ out) ++ floats ++ out)
   (hc : s.clients.get? k = some c)
include h hk hc

/-- A listed client that is not floating is a member of the resting order that is in. -/
theorem Resting.tile_of (hf : c.state.isFloating = false) : k ∈ tiles ∧ k ∉ out := by
  rcases mem_append.1 hk with hk | hk
  · rcases mem_append.1 hk with hk | hk
    · simpa using hk
    · obtain ⟨d, hd, -, hdf, -⟩ := h.float k hk
      rw [hc] at hd; cases hd; rw [hf] at hdf; cases hdf
  · obtain ⟨d, hd, -, hdf, -⟩ := h.promoted k hk
    rw [hc] at hd; cases hd; rw [hf] at hdf; cases hdf

theorem Resting.promoted_iff : c.state.promoted = true ↔ k ∈ out := by
  constructor
  · intro hp
    simp only [ClientState.promoted, Bool.and_eq_true] at hp
    rcases mem_append.1 hk with hk | hk
    · rcases mem_append.1 hk with hk | hk
      · obtain ⟨ht, ho⟩ := mem_filter.1 hk
        obtain ⟨d, hd, -, hdf⟩ := h.tile k ht (by simpa using ho)
        rw [hc] at hd; cases hd; rw [hp.2] at hdf; cases hdf
      · obtain ⟨d, hd, -, -, hdt⟩ := h.float k hk
        rw [hc] at hd; cases hd; rw [hp.1] at hdt; cases hdt
    · exact hk
  · intro ho
    obtain ⟨d, hd, -, hdf, hdt, -⟩ := h.promoted k ho
    rw [hc] at hd; cases hd
    simp [ClientState.promoted, hdf, hdt]

end

theorem Resting.step (h : Resting s mon tiles floats out) (st : PromotionStep mon s s') :
    ∃ out', Resting s' mon tiles floats out' := by
  cases st with
  | promote plan slot hl hk hc hf ha =>
    rw [h.list] at hl; cases hl
    obtain ⟨ht, ho⟩ := h.tile_of hk hc hf
    exact ⟨_, h.promote ht ho plan slot ha⟩
  | unpromote plan slot hl hk hc hp ha =>
    rw [h.list] at hl; cases hl
    exact ⟨_, h.unpromote ((h.promoted_iff hk hc).1 hp) plan slot ha⟩

theorem Resting.run (h : Resting s mon tiles floats out) (hr : Relation.ReflTransGen (PromotionStep mon) s s') :
    ∃ out', Resting s' mon tiles floats out' := by
  induction hr with
  | refl => exact ⟨out, h⟩
  | tail _ st ih => obtain ⟨out', h'⟩ := ih; exact h'.step st

end Runs

/-! ## A monitor with three tiles and a floating window -/

namespace Sample

def mon : MonitorKey := ⟨0, 1⟩
def a : ClientKey := ⟨1, 1⟩
def b : ClientKey := ⟨2, 1⟩
def c : ClientKey := ⟨3, 1⟩
def d : ClientKey := ⟨4, 1⟩

def client (floating : Bool) : WMClient where
  geometry := { floatingRect := ⟨10, 10, 640, 480⟩ }
  state := { isFloating := floating }
  mon := some mon

def state : WMState where
  clients := ⟨[(a, client false), (b, client false), (c, client false), (d, client true)], by decide⟩
  monitors := .empty
  monitorClients := ⟨[(mon, [a, b, c, d])], by decide⟩
  monitorStack := .empty

def enter : MaximizePlan := { axes := .full, restoreRect := some ⟨10, 10, 640, 480⟩, restingRect := ⟨0, 0, 1920, 1080⟩ }
def exit : MaximizePlan := { axes := .none, restoreRect := none, restingRect := ⟨10, 10, 640, 480⟩ }

theorem tilesThenFloats : TilesThenFloats state mon [a, b, c] [d] where
  list := rfl
  nodup := by decide
  tile := by
    intro k hk
    simp only [mem_cons, not_mem_nil, or_false] at hk
    rcases hk with rfl | rfl | rfl <;> exact ⟨client false, rfl, rfl, rfl⟩
  float := by
    intro k hk
    rw [mem_singleton] at hk
    subst hk
    exact ⟨client true, rfl, rfl, rfl, rfl⟩

/-- `a` and then `b` are promoted. -/
def twoOut : WMState := promote (promote state a enter .live) b enter .live

theorem twoOut_run : Relation.ReflTransGen (PromotionStep mon) state twoOut :=
  have hl : state.monitorClients.get? mon = some [a, b, c, d] := rfl
  have hl' : (promote state a enter .live).monitorClients.get? mon = some [b, c, d, a] := rfl
  .tail (.tail .refl (.promote enter .live hl (by decide) rfl rfl rfl)) (.promote enter .live hl' (by decide) rfl rfl rfl)

end Sample

section Confluence

variable {s s' : WMState} {mon : MonitorKey} {tiles floats : List ClientKey}

/-- Maximize promotion is order-confluent: whatever was promoted and returned, in whatever order,
once no listed client is promoted the monitor's list is the initial one. -/
theorem promotion_confluent (h0 : TilesThenFloats s mon tiles floats)
    (hr : Relation.ReflTransGen (PromotionStep mon) s s')
    (hnone : ∀ list, s'.monitorClients.get? mon = some list → ∀ k ∈ list, ∀ c, s'.clients.get? k = some c →
      c.state.promoted = false) :
    s'.monitorClients.get? mon = some (tiles ++ floats) := by
  obtain ⟨out, h⟩ := h0.resting.run hr
  have hout : out = [] := by
    rw [eq_nil_iff_forall_not_mem]
    intro k hk
    obtain ⟨c, hc, -⟩ := h.promoted k hk
    have hm := mem_append_right (tiles.filter (· ∉ out) ++ floats) hk
    have := (h.promoted_iff hm hc).2 hk
    rw [hnone _ h.list k hm c hc] at this
    cases this
  rw [h.list, hout]
  simp

end Confluence

open Sample

/-- `a` and `b` are promoted, `a` returns before `b`, and the list is what it was. -/
theorem promotion_confluent_sample :
    (unpromote (unpromote Sample.twoOut Sample.a Sample.exit .live) Sample.b Sample.exit .live).monitorClients.get?
      Sample.mon = some [Sample.a, Sample.b, Sample.c, Sample.d] := by
  have hl : twoOut.monitorClients.get? Sample.mon = some [Sample.c, Sample.d, Sample.a, Sample.b] := rfl
  have hl' : (unpromote twoOut Sample.a Sample.exit .live).monitorClients.get? Sample.mon =
      some [Sample.a, Sample.c, Sample.d, Sample.b] := rfl
  have first : PromotionStep Sample.mon twoOut (unpromote twoOut Sample.a Sample.exit .live) :=
    .unpromote Sample.exit .live hl (by decide) rfl rfl rfl
  have second : PromotionStep Sample.mon (unpromote twoOut Sample.a Sample.exit .live)
      (unpromote (unpromote twoOut Sample.a Sample.exit .live) Sample.b Sample.exit .live) :=
    .unpromote Sample.exit .live hl' (by decide) rfl rfl rfl
  refine promotion_confluent tilesThenFloats
    ((twoOut_run.tail first).tail second) ?_
  · intro list hl k hk client hc
    have hlist : [Sample.a, Sample.b, Sample.c, Sample.d] = list := Option.some.inj hl
    subst hlist
    simp only [mem_cons, not_mem_nil, or_false] at hk
    rcases hk with rfl | rfl | rfl | rfl <;> exact Option.some.inj hc ▸ rfl

end Jwm
