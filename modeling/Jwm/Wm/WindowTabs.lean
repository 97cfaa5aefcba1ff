/-
The tab strip of a monitor (`jwm/window_tabs.rs`): the windows that share it, the height it takes off the work area
(`compositor_common/window_tabs.rs`), and a tab dragged to another cell, planned on the windows of the strip and carried
out on the monitor's whole list.
-/
import Jwm.Layout.Geometry
import Jwm.Wm.Sendmon

namespace Jwm

open List Option

/-- What the strip reads of the configuration (`behavior().window_tabs`, `behavior().tab_bar_height`). -/
structure TabBehavior where
  windowTabs : Bool
  tabBarHeight : Float32

/-! ## The group -/

/-- The loop of `tab_group_clients`; `none` when a fullscreen window covers the strip. -/
def tabGroupScan (s : WMState) (mon : MonitorKey) : List ClientKey → Option (List ClientKey)
  | [] => some []
  | key :: keys =>
    match s.clients.get? key with
    | none => tabGroupScan s mon keys
    | some client =>
      if !isClientVisibleOnMonitor s key mon then tabGroupScan s mon keys
      else if client.state.isFullscreen then none
      else if client.state.isFloating then tabGroupScan s mon keys
      else (tabGroupScan s mon keys).map (key :: ·)

/-- `tabs::wants_bar`. -/
def wantsBar (count : Nat) : Bool := count ≥ 2

/-- The windows sharing the strip of `mon`, in the order of their cells; none without a strip. -/
def tabGroupClients (cfg : TabBehavior) (s : WMState) (mon : MonitorKey) : List ClientKey :=
  if !cfg.windowTabs then []
  else if (s.monitors.get? mon).any (·.lt == .fullscreen) then []
  else
    match s.monitorClients.get? mon with
    | none => []
    | some clientKeys =>
      match tabGroupScan s mon clientKeys with
      | none => []
      | some group => if wantsBar group.length then group else []

/-! ## The height -/

/-- `tabs::bar_height`. -/
def barHeight (configured : Float32) : Float32 :=
  if configured.isFinite then F32.clamp configured 1.0 256.0 else 24.0

/-- `round() as i32`, half away from zero. -/
def roundI32 (f : Float32) : Int :=
  let whole := F32.toI32 f
  if 0.5 ≤ f - F32.ofI32 whole then whole + 1
  else if f - F32.ofI32 whole ≤ -0.5 then whole - 1
  else whole

def tabBarReserved (cfg : TabBehavior) (s : WMState) (mon : MonitorKey) : Int :=
  if (tabGroupClients cfg s mon).isEmpty then 0 else roundI32 (barHeight cfg.tabBarHeight)

def withoutTabBar (area : Rect) (reserved : Int) : Rect :=
  if reserved ≤ 0 then area
  else
    let reserved := min reserved area.h
    ⟨area.x, area.y + reserved, area.w, area.h - reserved⟩

/-! ## Moving a tab -/

def tabReinsertIndex (list : List ClientKey) (successor : Option ClientKey) (isFloating : ClientKey → Bool) : Nat :=
  joinIndex isFloating list successor

/-- The order of the tabs with `dragged` at `targetSlot`; `none` when nothing changes. -/
def planTabReorder (order : List ClientKey) (dragged : ClientKey) (targetSlot : Nat) : Option (List ClientKey) :=
  match order.idxOf? dragged with
  | none => none
  | some source =>
    let slot := min targetSlot (order.length - 1)
    if slot = source then none else some ((order.eraseIdx source).insertIdx slot dragged)

/-- `commit_window_tab_reorder`, up to its `arrange`: `target` is what `tab_reorder_target` answers for the point. -/
def commitWindowTabReorder (cfg : TabBehavior) (s : WMState) (dragged : ClientKey) (target : Option (MonitorKey × Nat)) :
    WMState :=
  match target with
  | none => s
  | some (mon, slot) =>
    match planTabReorder (tabGroupClients cfg s mon) dragged slot with
    | none => s
    | some newOrder =>
      let successor := (newOrder.idxOf? dragged).bind fun pos => newOrder[pos + 1]?
      match s.monitorClients.get? mon with
      | none => s
      | some list =>
        let list := list.filter (· != dragged)
        s.setList mon (list.insertIdx (tabReinsertIndex list successor s.isClientFloating) dragged)

/-! ## Visible tiles -/

def showsFullscreen (s : WMState) (mon : MonitorKey) (key : ClientKey) : Bool :=
  isClientVisibleOnMonitor s key mon && (s.clients.get? key).any (·.state.isFullscreen)

section

variable {s : WMState} {mon : MonitorKey} {key : ClientKey}

theorem showsTiled_tiled (key : ClientKey) (h : showsTiled s mon key = true) : s.isClientFloating key = false := by
  unfold showsTiled at h
  rw [Bool.and_eq_true, Bool.not_eq_true'] at h
  exact h.2

theorem tabGroupScan_eq : ∀ keys : List ClientKey, tabGroupScan s mon keys =
    if keys.any (showsFullscreen s mon) then none else some (keys.filter (showsTiled s mon))
  | [] => rfl
  | key :: keys => by
    have ih := tabGroupScan_eq keys
    rw [tabGroupScan, any_cons, filter_cons]
    cases hc : s.clients.get? key with
    | none =>
      have hhidden : isClientVisibleOnMonitor s key mon = false := by
        unfold isClientVisibleOnMonitor
        rw [hc]
      have hfull : showsFullscreen s mon key = false := by
        unfold showsFullscreen
        rw [hhidden, Bool.false_and]
      have htiled : showsTiled s mon key = false := by
        unfold showsTiled
        rw [hhidden, Bool.false_and]
      rw [hfull, htiled, Bool.false_or, if_neg Bool.false_ne_true]
      exact ih
    | some client =>
      have hfull : showsFullscreen s mon key = (isClientVisibleOnMonitor s key mon && client.state.isFullscreen) := by
        unfold showsFullscreen
        rw [hc, any_some]
      have htiled : showsTiled s mon key = (isClientVisibleOnMonitor s key mon && !client.state.isFloating) := by
        unfold showsTiled WMState.isClientFloating
        rw [hc, any_some]
      rw [hfull, htiled]
      dsimp only
      rw [ih]
      cases isClientVisibleOnMonitor s key mon <;> cases client.state.isFullscreen <;> cases client.state.isFloating <;>
        cases keys.any (showsFullscreen s mon) <;> rfl

def stripShown (cfg : TabBehavior) (s : WMState) (mon : MonitorKey) (list : List ClientKey) : Bool :=
  cfg.windowTabs && !(s.monitors.get? mon).any (·.lt == .fullscreen) && !list.any (showsFullscreen s mon) &&
    wantsBar (list.filter (showsTiled s mon)).length

theorem tabGroupClients_eq {cfg : TabBehavior} {list : List ClientKey} (hl : s.monitorClients.get? mon = some list) :
    tabGroupClients cfg s mon = if stripShown cfg s mon list then list.filter (showsTiled s mon) else [] := by
  unfold tabGroupClients stripShown
  rw [hl]
  dsimp only
  rw [tabGroupScan_eq]
  cases cfg.windowTabs with
  | false => rfl
  | true =>
    cases (s.monitors.get? mon).any (·.lt == .fullscreen) with
    | true => rfl
    | false => cases list.any (showsFullscreen s mon) <;> rfl

theorem stripShown_perm {cfg : TabBehavior} {list list' : List ClientKey} (h : list'.Perm list) :
    stripShown cfg s mon list' = stripShown cfg s mon list := by
  unfold stripShown
  rw [h.any_eq, (h.filter _).length_eq]

end

/-! ## The plan -/

variable {l : List ClientKey} {k : ClientKey} {i : Nat}

theorem getElem?_insertIdx_succ (hi : i ≤ l.length) : (l.insertIdx i k)[i + 1]? = l[i]? := by
  rw [insertIdx_eq_take_drop _ _ _ hi, getElem?_append_right (by rw [length_take_of_le hi]; omega),
    length_take_of_le hi, Nat.add_sub_cancel_left, getElem?_cons_succ, getElem?_drop, Nat.add_zero]

theorem idxOf?_insertIdx (hi : i ≤ l.length) (hk : k ∉ l) : (l.insertIdx i k).idxOf? k = some i := by
  rw [insertIdx_eq_take_drop _ _ _ hi, idxOf?_append_cons fun h => hk (mem_of_mem_take h), length_take_of_le hi]

/-- A planned order is the others' with the dragged window at a slot, and its successor stood there before. -/
theorem planTabReorder_some {order newOrder : List ClientKey} {dragged : ClientKey} {targetSlot : Nat} (hn : order.Nodup)
    (h : planTabReorder order dragged targetSlot = some newOrder) :
    dragged ∈ order ∧ ∃ slot ≤ (order.filter (· != dragged)).length,
      newOrder = (order.filter (· != dragged)).insertIdx slot dragged ∧
      ((newOrder.idxOf? dragged).bind fun pos => newOrder[pos + 1]?) = (order.filter (· != dragged))[slot]? := by
  unfold planTabReorder at h
  cases hsource : order.idxOf? dragged with
  | none =>
    rw [hsource] at h
    cases h
  | some source =>
    have hmem : dragged ∈ order := by
      rw [← isSome_idxOf?, hsource]
      rfl
    rw [hsource] at h
    dsimp only at h
    split at h
    · cases h
    · obtain rfl := some.inj h
      rw [eraseIdx_of_idxOf? hsource, hn.erase_eq_filter]
      have hlen : (order.filter (· != dragged)).length = order.length - 1 := by
        rw [← hn.erase_eq_filter, length_erase_of_mem hmem]
      have hslot : min targetSlot (order.length - 1) ≤ (order.filter (· != dragged)).length := by
        rw [hlen]
        exact Nat.min_le_right _ _
      refine ⟨hmem, _, hslot, rfl, ?_⟩
      rw [idxOf?_insertIdx hslot (by simp), bind_some, getElem?_insertIdx_succ hslot]

/-! ## The commit -/

/-- A committed reorder: the strip shows the planned order, and of the monitor's list only the dragged window moved. -/
structure TabReordered (cfg : TabBehavior) (s s' : WMState) (mon : MonitorKey) (dragged : ClientKey)
    (list newOrder : List ClientKey) : Prop where
  group : tabGroupClients cfg s' mon = newOrder
  clients : s'.clients = s.clients
  monitors : s'.monitors = s.monitors
  others : ∀ m, m ≠ mon → s'.monitorClients.get? m = s.monitorClients.get? m
  list : ∃ list', s'.monitorClients.get? mon = some list' ∧ list'.Perm list ∧ Grouped s'.isClientFloating list' ∧
    list'.filter (· != dragged) = list.filter (· != dragged)

/-- A tab that is dropped takes the place it was planned to take in the strip, or nothing changes. -/
theorem window_tab_reorder (cfg : TabBehavior) {s : WMState} {mon : MonitorKey} {list : List ClientKey}
    (hl : s.monitorClients.get? mon = some list) (hn : list.Nodup) (hg : Grouped s.isClientFloating list)
    (dragged : ClientKey) (slot : Nat) :
    (∀ newOrder, planTabReorder (tabGroupClients cfg s mon) dragged slot = some newOrder →
        TabReordered cfg s (commitWindowTabReorder cfg s dragged (some (mon, slot))) mon dragged list newOrder) ∧
      (planTabReorder (tabGroupClients cfg s mon) dragged slot = none →
        commitWindowTabReorder cfg s dragged (some (mon, slot)) = s) := by
  refine ⟨fun newOrder hplan => ?_, fun hplan => ?_⟩
  · have hgroup := @tabGroupClients_eq _ _ cfg _ hl
    cases hstrip : stripShown cfg s mon list with
    | false =>
      -- without a strip there is nothing to reorder
      rw [hgroup, hstrip, if_neg Bool.false_ne_true] at hplan
      cases hplan
    | true =>
      rw [hstrip, if_pos rfl] at hgroup
      have hcommit : commitWindowTabReorder cfg s dragged (some (mon, slot)) =
          s.setList mon ((list.filter (· != dragged)).insertIdx (tabReinsertIndex (list.filter (· != dragged))
            ((newOrder.idxOf? dragged).bind fun pos => newOrder[pos + 1]?) s.isClientFloating) dragged) := by
        unfold commitWindowTabReorder
        dsimp only
        rw [hplan, hl]
      rw [hgroup] at hplan
      obtain ⟨hmem, place, hplace, rfl, hsuccessor⟩ := planTabReorder_some (hn.filter _) hplan
      rw [mem_filter] at hmem
      have hmoved := reseated (hg.sublist filter_sublist) hn hmem.1 showsTiled_tiled hmem.2 hplace
      rw [hcommit, hsuccessor]
      unfold tabReinsertIndex
      generalize (list.filter (· != dragged)).insertIdx _ dragged = list' at hmoved
      have hlist : (s.setList mon list').monitorClients.get? mon = some list' := by
        rw [WMState.setList_get?, if_pos rfl, hl]
        rfl
      refine ⟨?_, rfl, rfl, fun m hm => ?_, list', hlist, hmoved.perm, hmoved.grouped, hmoved.rest⟩
      · have hstrip' : stripShown cfg (s.setList mon list') mon list' = true := (stripShown_perm hmoved.perm).trans hstrip
        rw [tabGroupClients_eq hlist, hstrip', if_pos rfl]
        exact hmoved.part
      · rw [WMState.setList_get?, if_neg hm]
  · unfold commitWindowTabReorder
    dsimp only
    rw [hplan]

namespace TabSample

def screen : MonitorKey := ⟨1, 1⟩
def editor : ClientKey := ⟨1, 1⟩
def elsewhere : ClientKey := ⟨2, 1⟩
def shell : ClientKey := ⟨3, 1⟩
def floating : ClientKey := ⟨4, 1⟩

def window (tags : BitVec 32) (isFloating : Bool) : WMClient where
  geometry := { floatingRect := ⟨0, 0, 640, 480⟩ }
  state := { isFloating := isFloating, tags := tags }
  mon := some screen

/-- Two tabs with a window of another tag between them, and a floating window. -/
def state : WMState where
  clients := ⟨[(editor, window 1 false), (elsewhere, window 2 false), (shell, window 1 false), (floating, window 1 true)],
    by decide⟩
  monitors := ⟨[(screen, { WMMonitor.new with tagSet := fun _ => 1 })], by decide⟩
  monitorClients := ⟨[(screen, [editor, elsewhere, shell, floating])], nodup_singleton screen⟩
  monitorStack := ⟨[(screen, [editor, shell, floating, elsewhere])], nodup_singleton screen⟩
  monitorOrder := [screen]
  selMon := some screen

end TabSample

open TabSample

/-- The first tab dropped last stays ahead of the floating window. -/
theorem window_tab_reorder_last :
    TabReordered ⟨true, 24.0⟩ TabSample.state
      (commitWindowTabReorder ⟨true, 24.0⟩ TabSample.state TabSample.editor (some (TabSample.screen, 5))) TabSample.screen
      TabSample.editor [TabSample.editor, TabSample.elsewhere, TabSample.shell, TabSample.floating]
      [TabSample.shell, TabSample.editor] :=
  (window_tab_reorder ⟨true, 24.0⟩ (by rfl) (by decide) (by unfold Grouped; decide) editor 5).1
    [shell, editor] (by decide)

end Jwm
