/-
A dragged window dropped back among the tiles (`jwm/layout/drag_attach.rs`): the slot the preview shows, found by laying
out the tiles with the window at every index, and the drop that puts it there. Snaps of floating windows and the strips
of the scrolling layout are not modelled.
-/
import Jwm.Wm.FocusRuns
import Jwm.Wm.LayoutInputs

namespace Jwm

open Layout BarGeometry Insets WMState WMClient
open List Option

/-! ## The preview -/

/-- FULLSCREEN alone uses the physical output, like its arrange. -/
def layoutAttachArea (layout : LayoutEnum) (work : Rect) (physical : Option Rect) : Rect :=
  if layout = .fullscreen then physical.getD work else work

/-- Whether the pointer is outside the slot; then the size of the slot, or its distance. -/
def candidateKey (px py : Int) (r : Rect) : Bool × Int :=
  if r.x ≤ px ∧ px < r.x + max r.w 1 ∧ r.y ≤ py ∧ py < r.y + max r.h 1 then (false, r.w * r.h)
  else
    let dx := px - (r.x + r.w.tdiv 2)
    let dy := py - (r.y + r.h.tdiv 2)
    (true, dx * dx + dy * dy)

def pickBestCandidate (candidates : List (Nat × Rect)) (px py : Int) : Option (Nat × Rect) :=
  candidates.foldl (fun best candidate =>
    let key := candidateKey px py candidate.2
    if best.all fun b =>
      let bestKey := candidateKey px py b.2
      bestKey.1 && !key.1 || bestKey.1 == key.1 && key.2 < bestKey.2
    then some candidate else best) none

def layoutCalcFn : LayoutEnum → Option Calculator
  | .tile => some calculateTile
  | .monocle => some calculateMonocle
  | .fibonacci => some calculateFibonacci
  | .centeredMaster => some calculateCenteredMaster
  | .bstack => some calculateBstack
  | .grid => some calculateGrid
  | .deck => some calculateDeck
  | .threeCol => some calculateThreeCol
  | .tatami => some calculateTatami
  | .fullscreen => some calculateFullscreen
  | .vstack => some calculateVstack
  | .scrolling | .float | .any => none

/-- The tiles beside the dragged window, which is one of them in a reorder drag. -/
def otherTiles (s : WMState) (mon : MonitorKey) (drag : ClientKey) : List Tile :=
  (collectTileableClients s mon).filter (·.1 != drag)

/-- The order of a V-stack starts with the focused window, which the dropped one will be. -/
def candidateIndices (layout : LayoutEnum) (count : Nat) : List Nat := if layout = .vstack then [0] else List.range count

/-- The index and the rectangle of the slot; the outer `none` is an overflow. -/
def planLayoutAttach (cfg : LayoutConfig) (s : WMState) (mon : MonitorKey) (drag : ClientKey) (layout : LayoutEnum)
    (px py : Int) : Option (Option (Nat × Rect)) :=
  match layoutCalcFn layout with
  | none => some none
  | some calculate => do
    let tiled := otherTiles s mon drag
    let (work, mFact, nMaster) := getMonitorInfo s mon
    let workArea := (← monitorWorkArea cfg s mon).getD work
    let screenArea := layoutAttachArea layout workArea ((s.monitors.get? mon).map (·.rect))
    let gap := ((s.monitors.get? mon).map (·.layout.gap)).getD cfg.layoutGap
    let borderFor := fun key =>
      tiledClientBorderWidth cfg.borderPx ((s.clients.get? key).any (·.state.noDecorations))
    let dragFactor := ((s.clients.get? drag).map (·.state.clientFact)).getD 1.0
    let sim := tiled.map fun (key, factor, _) => { key, factor, borderW := borderFor key : LayoutClient ClientKey }
    let candidates := (candidateIndices layout (tiled.length + 1)).filterMap fun index =>
      let placed := calculate ⟨screenArea, nMaster, mFact, gap⟩
        (sim.insertIdx (min index sim.length) { key := drag, factor := dragFactor, borderW := borderFor drag })
      (placed.find? (·.key == drag)).map fun result => (index, result.rect)
    return pickBestCandidate candidates px py

/-! ## The drop -/

/-- The window is tiled again; where it floats is remembered if it did. -/
def WMClient.reclaim (c : WMClient) : WMClient :=
  { c with
    geometry := if c.state.isFloating then { c.geometry with floatingRect := c.geometry.rect } else c.geometry
    state := { c.state with isFloating := false, isDragFloating := false } }

/-- The client is tiled again, in front of the anchor or at the end of the tiles. -/
def retile (s : WMState) (drag : ClientKey) (mon : MonitorKey) (anchor : Option ClientKey) : WMState :=
  let s := s.modifyClient drag reclaim
  match s.monitorClients.get? mon with
  | none => s
  | some list =>
    let list := list.filter (· != drag)
    s.setList mon (list.insertIdx (min (joinIndex s.isClientFloating list anchor) list.length) drag)

/-- `attach_dragged_client`, up to its `arrange`. -/
def Desk.attachDraggedClient (ctx : DeskContext) (r : DeskReading) (d : Desk) (drag : ClientKey) (mon : MonitorKey)
    (anchorOf : WMState → Option ClientKey) : Desk :=
  let d := if d.wm.monOf drag ≠ some mon then d.sendmon ctx r (some drag) (some mon) else d
  let s := retile d.wm drag mon (anchorOf d.wm)
  (({ d with wm := { s with selMon := some mon } } : Desk).focus ctx r (some drag)).1

/-- The `Attach` arm of `apply_drag_snap`: the anchor is the tile that holds the index. -/
def Desk.applyAttach (ctx : DeskContext) (r : DeskReading) (d : Desk) (drag : ClientKey) (mon : MonitorKey)
    (tiledIndex : Nat) : Desk :=
  d.attachDraggedClient ctx r drag mon fun s => ((otherTiles s mon drag)[tiledIndex]?).map (·.1)

/-! ## What an arrange does not read -/

/-- A client without what a drop, its border and the focus change. -/
def WMClient.ground (c : WMClient) : WMClient :=
  { c with
    geometry := { rect := c.geometry.rect }
    state := { c.state with isFloating := false, isDragFloating := false } }

def WMMonitor.unselected (m : WMMonitor) : WMMonitor :=
  { m with sel := none, pertag := m.pertag.map fun p => { p with sel := [] } }

theorem WMMonitor.face_eq {m m' : WMMonitor} (h : m'.unselected = m.unselected) :
    m'.num = m.num ∧ m'.work = m.work ∧ m'.rect = m.rect ∧ m'.layout = m.layout ∧ m'.lt = m.lt :=
  show m'.unselected.num = m.unselected.num ∧ m'.unselected.work = m.unselected.work ∧
      m'.unselected.rect = m.unselected.rect ∧ m'.unselected.layout = m.unselected.layout ∧
      m'.unselected.lt = m.unselected.lt by
    rw [h]
    exact ⟨rfl, rfl, rfl, rfl, rfl⟩

/-- The same clients on the same monitor, in some order: only what floats, borders and selections differ. -/
structure SameGround (s s' : WMState) (mon : MonitorKey) : Prop where
  clients : ∀ k, (s'.clients.get? k).map ground = (s.clients.get? k).map ground
  monitor : (s'.monitors.get? mon).map WMMonitor.unselected = (s.monitors.get? mon).map WMMonitor.unselected
  list : ((s'.monitorClients.get? mon).getD []).Perm ((s.monitorClients.get? mon).getD [])

namespace SameGround

variable {s s' : WMState} {mon : MonitorKey}

section

variable (h : SameGround s s' mon)
include h

open WMMonitor

theorem isClientVisibleOnMonitor_eq (key : ClientKey) :
    isClientVisibleOnMonitor s' key mon = isClientVisibleOnMonitor s key mon := by
  have reads : ∀ s : WMState, isClientVisibleOnMonitor s key mon =
      ((s.clients.get? key).map ground).any fun c =>
        ((s.monitors.get? mon).map unselected).any fun m => c.shows m.activeTags := by
    intro s
    unfold isClientVisibleOnMonitor
    cases s.clients.get? key <;> cases s.monitors.get? mon <;> rfl
  rw [reads, reads, h.clients, h.monitor]

theorem showsFullscreen_eq : showsFullscreen s' mon = showsFullscreen s mon := by
  funext key
  have reads : ∀ s : WMState, (s.clients.get? key).any (·.state.isFullscreen) =
      ((s.clients.get? key).map ground).any (·.state.isFullscreen) := by
    intro s
    cases s.clients.get? key <;> rfl
  unfold showsFullscreen
  rw [h.isClientVisibleOnMonitor_eq, reads, reads, h.clients]

theorem monitorHasVisibleFullscreen_eq : monitorHasVisibleFullscreen s' mon = monitorHasVisibleFullscreen s mon := by
  unfold monitorHasVisibleFullscreen
  rw [h.showsFullscreen_eq, h.list.any_eq]

theorem monitorShowsStatusBar_eq : monitorShowsStatusBar s' mon = monitorShowsStatusBar s mon := by
  have reads : ∀ s : WMState, monitorShowsStatusBar s mon =
      (((s.monitors.get? mon).map unselected).all fun m =>
        (m.pertag.bind fun p => p.showBars[p.curTag]?).getD true && !monitorHasVisibleFullscreen s mon) := by
    intro s
    unfold monitorShowsStatusBar
    cases s.monitors.get? mon with
    | none => rfl
    | some m =>
      rw [map_some, all_some]
      unfold unselected
      dsimp only
      cases m.pertag <;> rfl
  rw [reads, reads, h.monitor, h.monitorHasVisibleFullscreen_eq]

theorem fullscreenLayout_eq :
    (s'.monitors.get? mon).any (·.lt == .fullscreen) = (s.monitors.get? mon).any (·.lt == .fullscreen) := by
  have reads : ∀ s : WMState, (s.monitors.get? mon).any (·.lt == .fullscreen) =
      ((s.monitors.get? mon).map unselected).any (·.lt == .fullscreen) := by
    intro s
    cases s.monitors.get? mon <;> rfl
  rw [reads, reads, h.monitor]

theorem stripShown_eq (hfloating : s'.isClientFloating = s.isClientFloating) (cfg : TabBehavior) (list : List ClientKey) :
    stripShown cfg s' mon list = stripShown cfg s mon list := by
  have htiled : showsTiled s' mon = showsTiled s mon := by
    funext key
    unfold showsTiled
    rw [h.isClientVisibleOnMonitor_eq, hfloating]
  unfold stripShown
  rw [h.fullscreenLayout_eq, h.showsFullscreen_eq, htiled]

theorem clientClaim_eq (ctx : PanelContext) {m m' : WMMonitor} (hm : m'.unselected = m.unselected) (key : ClientKey) :
    clientClaim ctx s' mon m' key = clientClaim ctx s mon m key := by
  obtain ⟨hnum, hwork, hrect, -, -⟩ := face_eq hm
  have hclient := h.clients key
  unfold clientClaim
  rw [hnum, hwork, hrect, h.isClientVisibleOnMonitor_eq]
  cases hc : s.clients.get? key with
  | none =>
    rw [hc] at hclient
    rw [map_eq_none_iff.1 hclient]
  | some c =>
    rw [hc, map_some] at hclient
    obtain ⟨c', hc', hground⟩ := map_eq_some_iff.1 hclient
    have hdock : c'.state.isDock = c.state.isDock := show c'.ground.state.isDock = c.ground.state.isDock by rw [hground]
    have hlayer : sharedShellLayer ctx key c' = sharedShellLayer ctx key c :=
      show sharedShellLayer ctx key c'.ground = sharedShellLayer ctx key c.ground by rw [hground]
    have hgeometry : c'.geometry.rect = c.geometry.rect :=
      show c'.ground.geometry.rect = c.ground.geometry.rect by rw [hground]
    rw [hc']
    dsimp only
    rw [hdock, hlayer, hgeometry]

theorem reservedTotal_eq (ctx : PanelContext) {m m' : WMMonitor} (hm : m'.unselected = m.unselected) (showBar : Bool) :
    reservedTotal ctx s' mon m' showBar = reservedTotal ctx s mon m showBar := by
  obtain ⟨hnum, hwork, hrect, -, -⟩ := face_eq hm
  have hbar : forMonitor ctx m' = forMonitor ctx m := by
    unfold forMonitor
    rw [hnum, hrect]
  have hclaims : ∀ bar, barClaims ctx m' bar = barClaims ctx m bar := by
    intro bar
    unfold barClaims
    rw [hwork, hrect]
  have hdocks : ∀ claims : List Insets,
      (((s'.monitorClients.get? mon).getD []).mapM (clientClaim ctx s' mon m')).map (fun docks => total (docks ++ claims)) =
        (((s.monitorClients.get? mon).getD []).mapM (clientClaim ctx s mon m)).map fun docks => total (docks ++ claims) := by
    intro claims
    rw [show clientClaim ctx s' mon m' = clientClaim ctx s mon m from funext fun key => h.clientClaim_eq ctx hm key]
    exact mapM_perm h.list fun docks docks' hdocks => total_perm (hdocks.append_right claims)
  have reads : ∀ (s : WMState) (m : WMMonitor) (bar : BarGeometry),
      (do
        let docks ← ((s.monitorClients.get? mon).getD []).mapM (clientClaim ctx s mon m)
        if showBar then return total (docks ++ [← barClaims ctx m bar]) else return total docks) =
      ((if showBar then (barClaims ctx m bar).map ([·]) else some []).bind fun claims =>
        (((s.monitorClients.get? mon).getD []).mapM (clientClaim ctx s mon m)).map fun docks => total (docks ++ claims)) := by
    intro s m bar
    cases ((s.monitorClients.get? mon).getD []).mapM (clientClaim ctx s mon m) with
    | none => cases showBar <;> cases barClaims ctx m bar <;> rfl
    | some docks =>
      cases showBar with
      | false => exact congrArg (fun docks => some (total docks)) (append_nil docks).symm
      | true => cases barClaims ctx m bar <;> rfl
  unfold reservedTotal
  rw [hbar]
  cases forMonitor ctx m with
  | none => rfl
  | some bar =>
    refine (reads s' m' bar).trans (.trans ?_ (reads s m bar).symm)
    rw [hclaims]
    exact congrArg (Option.bind _) (funext fun claims => hdocks claims)

theorem untabbed_eq (ctx : PanelContext) (showBar : Bool) :
    monitorWorkAreaUntabbedWithBar ctx s' mon showBar = monitorWorkAreaUntabbedWithBar ctx s mon showBar := by
  have hmonitor := h.monitor
  unfold monitorWorkAreaUntabbedWithBar
  cases hm : s.monitors.get? mon with
  | none =>
    rw [hm] at hmonitor
    rw [map_eq_none_iff.1 hmonitor]
  | some m =>
    rw [hm, map_some] at hmonitor
    obtain ⟨m', hm', hface⟩ := map_eq_some_iff.1 hmonitor
    obtain ⟨-, hwork, -, -, -⟩ := face_eq hface
    rw [hm']
    dsimp only
    rw [h.reservedTotal_eq ctx hface, hwork]

end

end SameGround

/-! ## Focus -/

/-- Only selections and focus stacks differ. -/
structure Reselected (s s' : WMState) : Prop where
  clients : s'.clients = s.clients
  lists : s'.monitorClients = s.monitorClients
  monitors : ∀ mon, (s'.monitors.get? mon).map WMMonitor.unselected = (s.monitors.get? mon).map WMMonitor.unselected

namespace Reselected

variable {s s' s'' : WMState}

theorem refl (s : WMState) : Reselected s s := ⟨rfl, rfl, fun _ => rfl⟩

theorem trans (h : Reselected s s') (h' : Reselected s' s'') : Reselected s s'' :=
  ⟨h'.clients.trans h.clients, h'.lists.trans h.lists, fun mon => (h'.monitors mon).trans (h.monitors mon)⟩

theorem reselecting {f : WMMonitor → WMMonitor} (hf : ∀ m, (f m).unselected = m.unselected) (s : WMState) (mon : MonitorKey) :
    Reselected s { s with monitors := s.monitors.modify mon f } := by
  refine ⟨rfl, rfl, fun mon' => ?_⟩
  rw [KeyMap.get?_modify]
  split
  · rw [Option.map_map]
    exact congrArg (Option.map · _) (funext hf)
  · rfl

theorem reselect_unselected (m : WMMonitor) (key : ClientKey) (next : Option ClientKey) :
    (m.reselect key next).unselected = m.unselected := by
  unfold WMMonitor.reselect
  split <;> rfl

theorem setSelected_unselected (m : WMMonitor) (client : Option ClientKey) :
    (m.setSelectedClientForCurrentTag client).unselected = m.unselected := by
  unfold WMMonitor.unselected WMMonitor.setSelectedClientForCurrentTag
  cases m.pertag <;> rfl

theorem raised (s : WMState) (key : ClientKey) : Reselected s (attachstack (detachstack s key) key) := by
  cases hm : s.monOf key with
  | none =>
    unfold detachstack
    rw [hm]
    unfold attachstack
    rw [hm]
    exact refl s
  | some m =>
    rw [raise_eq hm]
    have h := reselecting (f := (·.reselect key (nextSelected s key m))) (fun m => reselect_unselected m key _) s m
    exact ⟨rfl, rfl, h.monitors⟩

theorem recorded (s : WMState) (client : Option ClientKey) : Reselected s (updateMonitorSelection s client) := by
  unfold updateMonitorSelection
  split
  · exact refl s
  · exact reselecting (fun m => setSelected_unselected m client) s _

end Reselected

variable {key : ClientKey} {px py : Int} {area' : Option Rect}

section

variable {ctx : DeskContext} {r : DeskReading} (d : Desk)

open Desk

theorem handleFocusChange_wm (client : Option ClientKey) : (d.handleFocusChangeByKey client).wm = d.wm := by
  unfold handleFocusChangeByKey
  split
  · rfl
  · split
    · rfl
    · unfold unfocusClient
      split <;> rfl

theorem focus_reselected (client : Option ClientKey) : Reselected d.wm (d.focus ctx r client).1.wm := by
  unfold focus
  have hwm := handleFocusChange_wm d (d.focusTarget ctx client)
  dsimp only
  generalize d.focusTarget ctx client = target at hwm ⊢
  generalize d.handleFocusChangeByKey target = d' at hwm ⊢
  rw [← hwm]
  cases target with
  | none => exact .recorded _ none
  | some key =>
    dsimp only
    have hset : Reselected d'.wm (d'.setClientFocusByKey ctx r key).1.wm := by
      unfold Desk.setClientFocusByKey
      cases hc : d'.wm.clients.get? key with
      | none => exact .refl _
      | some c =>
        dsimp only
        have hclear := (clearAttention_spec (r := r) { d' with wm := { d'.wm with selMon := c.mon.or d'.wm.selMon } } key).1
        generalize clearAttention r { d' with wm := { d'.wm with selMon := c.mon.or d'.wm.selMon } } key = d1 at hclear ⊢
        have hraised := Reselected.raised { d'.wm with selMon := c.mon.or d'.wm.selMon } key
        unfold setfocus updateClientDecoration
        rw [hclear]
        split
        · exact ⟨hraised.clients, hraised.lists, hraised.monitors⟩
        · exact ⟨hraised.clients, hraised.lists, hraised.monitors⟩
    generalize d'.setClientFocusByKey ctx r key = result at hset ⊢
    obtain ⟨d2, outcome⟩ := result
    cases outcome with
    | error e => exact hset
    | ok u => exact hset.trans (.recorded d2.wm (some key))

variable {d}

theorem focus_selects {mon : MonitorKey} (hm : d.wm.monOf key = some mon)
    (he : isApplicationFocusEligible d.wm key = true) (hv : isClientVisibleOnMonitor d.wm key mon = true)
    (hl : ctx.locked mon = false) :
    (((d.focus ctx r (some key)).1.wm.monitors.get? mon).bind (·.sel)) = some key := by
  have htarget : d.focusTarget ctx (some key) = some key := by
    refine focusTarget_given he (visibleByKey_iff.2 ⟨mon, hm, hv⟩) ?_
    unfold clientIsOnLockedMonitor
    rw [hm]
    exact hl
  obtain ⟨c, m, hc, hmon, -⟩ := visible_iff.1 hv
  have hcm : c.mon = some mon := by
    rw [monOf, hc] at hm
    exact hm
  have hwm := handleFocusChange_wm d (some key)
  unfold focus
  rw [htarget]
  dsimp only
  generalize d.handleFocusChangeByKey (some key) = d' at hwm ⊢
  rw [← hwm] at hc hmon hm
  obtain ⟨hok, hraised, -, -⟩ := @setClientFocus_spec ctx r _ _ _ _ hc hcm
  generalize d'.setClientFocusByKey ctx r key = result at hok hraised ⊢
  obtain ⟨d2, outcome⟩ := result
  subst hok
  have hm' : ({ d'.wm with selMon := some mon } : WMState).monOf key = some mon := hm
  show ((updateMonitorSelection d2.wm (some key)).monitors.get? mon).bind (·.sel) = some key
  rw [hraised, raise_eq hm', updateMonitorSelection_eq rfl, KeyMap.get?_modify, if_pos rfl, KeyMap.get?_modify, if_pos rfl]
  rw [hmon]
  rfl

end

/-! ## The drop -/

/-- The dragged window is tiled in a new list, and nothing else that a layout reads has changed. -/
structure Dropped (s s' : WMState) (mon : MonitorKey) (drag : ClientKey) (list' : List ClientKey) : Prop where
  clients : ∀ k, s'.clients.get? k = if k = drag then (s.clients.get? k).map reclaim else s.clients.get? k
  monitor : (s'.monitors.get? mon).map WMMonitor.unselected = (s.monitors.get? mon).map WMMonitor.unselected
  list : s'.monitorClients.get? mon = some list'

/-- Where a dropped window joins the list it was taken out of. -/
def dropIndex (s : WMState) (drag : ClientKey) (list : List ClientKey) (anchor : Option ClientKey) : Nat :=
  joinIndex (s.modifyClient drag reclaim).isClientFloating (list.filter (· != drag)) anchor

section

variable {ctx : DeskContext} {r : DeskReading} {d : Desk} {mon : MonitorKey} {drag : ClientKey} {list : List ClientKey}

theorem retile_frame (s : WMState) (drag : ClientKey) (mon : MonitorKey) (anchor : Option ClientKey) :
    (retile s drag mon anchor).clients = (s.modifyClient drag reclaim).clients ∧
      (retile s drag mon anchor).monitors = s.monitors := by
  unfold retile
  dsimp only
  split
  · exact ⟨rfl, rfl⟩
  · exact ⟨rfl, rfl⟩

theorem retile_list {s : WMState} (hl : s.monitorClients.get? mon = some list) (anchor : Option ClientKey) :
    (retile s drag mon anchor).monitorClients.get? mon = some ((list.filter (· != drag)).insertIdx
      (min (dropIndex s drag list anchor) (list.filter (· != drag)).length) drag) := by
  unfold retile dropIndex
  dsimp only
  rw [modifyClient_monitorClients, hl]
  rw [setList_get?, if_pos rfl, modifyClient_monitorClients, hl]
  rfl

theorem attachDraggedClient_eq (hon : d.wm.monOf drag = some mon) (anchorOf : WMState → Option ClientKey) :
    d.attachDraggedClient ctx r drag mon anchorOf =
      (({ d with wm := { retile d.wm drag mon (anchorOf d.wm) with selMon := some mon } } : Desk).focus ctx r (some drag)).1 := by
  unfold Desk.attachDraggedClient
  rw [if_neg (not_not.2 hon)]

theorem attachDraggedClient_dropped (hon : d.wm.monOf drag = some mon) (hl : d.wm.monitorClients.get? mon = some list)
    (anchorOf : WMState → Option ClientKey) :
    Dropped d.wm (d.attachDraggedClient ctx r drag mon anchorOf).wm mon drag ((list.filter (· != drag)).insertIdx
      (min (dropIndex d.wm drag list (anchorOf d.wm)) (list.filter (· != drag)).length) drag) := by
  rw [attachDraggedClient_eq hon]
  have hlist := @retile_list _ drag _ _ hl (anchorOf d.wm)
  obtain ⟨hclients, hmonitors⟩ := retile_frame d.wm drag mon (anchorOf d.wm)
  generalize retile d.wm drag mon (anchorOf d.wm) = s at hlist hclients hmonitors ⊢
  have hfocus := @focus_reselected ctx r { d with wm := { s with selMon := some mon } } (some drag)
  refine ⟨fun k => ?_, (hfocus.monitors mon).trans ?_, ?_⟩
  · rw [hfocus.clients]
    rw [hclients]
    exact WMState.modifyClient_get? ..
  · rw [hmonitors]
  · rw [hfocus.lists]
    exact hlist

end

namespace Dropped

variable {s s' : WMState} {mon : MonitorKey} {drag : ClientKey} {list list' : List ClientKey}

section

variable (h : Dropped s s' mon drag list')
include h

theorem sameGround (hl : s.monitorClients.get? mon = some list) (hperm : list'.Perm list) : SameGround s s' mon where
  clients k := by
    rw [h.clients]
    split
    · rw [Option.map_map]
      refine congrArg (Option.map · _) (funext fun c => ?_)
      show c.reclaim.ground = c.ground
      unfold reclaim
      split <;> rfl
    · rfl
  monitor := h.monitor
  list := by
    rw [h.list, hl]
    exact hperm

theorem isClientFloating_eq (k : ClientKey) :
    s'.isClientFloating k = if k = drag then false else s.isClientFloating k := by
  unfold isClientFloating
  rw [h.clients]
  split
  · cases s.clients.get? k <;> rfl
  · rfl

theorem layoutTile_eq (cfg : LayoutConfig) : layoutTile cfg s' = layoutTile cfg s := by
  funext k
  unfold layoutTile
  rw [h.clients]
  split
  · cases s.clients.get? k <;> rfl
  · rfl

theorem showsTiled_eq (hg : SameGround s s' mon) (k : ClientKey) :
    showsTiled s' mon k = if k = drag then isClientVisibleOnMonitor s drag mon else showsTiled s mon k := by
  unfold showsTiled
  rw [hg.isClientVisibleOnMonitor_eq, h.isClientFloating_eq]
  split
  · rename_i e
    rw [e, Bool.not_false, Bool.and_true]
  · rfl

theorem otherTiles_eq (hg : SameGround s s' mon) (list : List ClientKey) :
    (list.filter (showsTiled s' mon)).filter (· != drag) = (list.filter (showsTiled s mon)).filter (· != drag) := by
  rw [List.filter_filter, List.filter_filter]
  refine filter_congr fun k _ => ?_
  by_cases hk : k = drag
  · rw [hk, bne_self_eq_false, Bool.false_and, Bool.false_and]
  · rw [h.showsTiled_eq hg, if_neg hk]

end

end Dropped

theorem otherTiles_keys (s : WMState) (mon : MonitorKey) (drag : ClientKey) :
    (otherTiles s mon drag).map Prod.fst = (tiledKeys s mon).filter (· != drag) := by
  rw [← collectTileableClients_keys, List.filter_map]
  rfl

/-- The list after the drop: the window joins the tiles at the index, the others keep their order. -/
theorem applyAttach_reseated {ctx : DeskContext} {r : DeskReading} {d : Desk} {mon : MonitorKey} {drag : ClientKey}
    {list : List ClientKey} {i : Nat} (hon : d.wm.monOf drag = some mon) (hl : d.wm.monitorClients.get? mon = some list)
    (hn : list.Nodup) (hg : Grouped d.wm.isClientFloating list) (hmem : drag ∈ list)
    (hshown : isClientVisibleOnMonitor d.wm drag mon = true) (hi : i ≤ ((tiledKeys d.wm mon).filter (· != drag)).length) :
    ∃ list', Dropped d.wm (d.applyAttach ctx r drag mon i).wm mon drag list' ∧
      Reseated (d.applyAttach ctx r drag mon i).wm.isClientFloating (showsTiled (d.applyAttach ctx r drag mon i).wm mon)
        list drag i list' := by
  have hdrop : Dropped d.wm (d.applyAttach ctx r drag mon i).wm mon drag ((list.filter (· != drag)).insertIdx
      (min (dropIndex d.wm drag list (((otherTiles d.wm mon drag)[i]?).map (·.1))) (list.filter (· != drag)).length) drag) :=
    attachDraggedClient_dropped hon hl _
  refine ⟨_, hdrop, ?_⟩
  have htiled : tiledKeys d.wm mon = list.filter (showsTiled d.wm mon) := by
    unfold tiledKeys
    rw [hl]
    rfl
  have hanchor : ((otherTiles d.wm mon drag)[i]?).map (·.1) = ((list.filter (showsTiled d.wm mon)).filter (· != drag))[i]? := by
    rw [← htiled, ← otherTiles_keys, getElem?_map]
  have hfloating : (d.wm.modifyClient drag reclaim).isClientFloating =
      (d.applyAttach ctx r drag mon i).wm.isClientFloating := by
    funext k
    unfold isClientFloating
    rw [modifyClient_get?]
    exact congrArg _ (hdrop.clients k).symm
  have hperm : ∀ place ≤ (list.filter (· != drag)).length, ((list.filter (· != drag)).insertIdx place drag).Perm list := by
    intro place hplace
    rw [← hn.erase_eq_filter] at hplace ⊢
    exact (perm_insertIdx _ _ hplace).trans (perm_cons_erase hmem).symm
  have hground := hdrop.sameGround hl (hperm _ (Nat.min_le_right _ _))
  have hgrouped : Grouped (d.applyAttach ctx r drag mon i).wm.isClientFloating (list.filter (· != drag)) := by
    refine List.Pairwise.imp_of_mem (fun {a b} ha hb hab => ?_) (hg.sublist filter_sublist)
    rw [hdrop.isClientFloating_eq, hdrop.isClientFloating_eq, if_neg (by simpa using (mem_filter.1 ha).2),
      if_neg (by simpa using (mem_filter.1 hb).2)]
    exact hab
  have hdrag : showsTiled (d.applyAttach ctx r drag mon i).wm mon drag = true := by
    rw [hdrop.showsTiled_eq hground, if_pos rfl]
    exact hshown
  have hothers := hdrop.otherTiles_eq hground list
  rw [htiled] at hi
  rw [hanchor]
  unfold dropIndex
  rw [hfloating, ← hothers]
  have hslot := slot_joinIndex hgrouped (hn.filter _) (@showsTiled_tiled _ mon)
    (showsTiled_tiled drag hdrag) (j := i)
  rw [filter_comm] at hslot
  rw [Nat.min_eq_left hslot.le]
  exact reseated hgrouped hn hmem showsTiled_tiled hdrag (hothers.symm ▸ hi)

/-! ## The work area -/

/-- The drop brings up the tab strip: the window floated over the one tile of a monitor that may have a strip. -/
def bringsUpStrip (cfg : TabBehavior) (s : WMState) (mon : MonitorKey) (drag : ClientKey) : Bool :=
  cfg.windowTabs && !(s.monitors.get? mon).any (·.lt == .fullscreen) && !monitorHasVisibleFullscreen s mon &&
    (s.isClientFloating drag && (tiledKeys s mon).length == 1)

theorem tabBarReserved_eq {cfg : TabBehavior} {s : WMState} {mon : MonitorKey} {list : List ClientKey}
    (hl : s.monitorClients.get? mon = some list) :
    tabBarReserved cfg s mon = if stripShown cfg s mon list then roundI32 (barHeight cfg.tabBarHeight) else 0 := by
  unfold tabBarReserved
  rw [tabGroupClients_eq hl]
  cases hstrip : stripShown cfg s mon list with
  | false => rfl
  | true =>
    have hbar : wantsBar (list.filter (showsTiled s mon)).length = true := by
      exact (Bool.and_eq_true_iff.1 hstrip).2
    have hne : (list.filter (showsTiled s mon)).isEmpty = false := by
      cases htiles : list.filter (showsTiled s mon) with
      | nil =>
        rw [htiles] at hbar
        cases hbar
      | cons => rfl
    rw [if_pos rfl, hne, if_neg Bool.false_ne_true, if_pos rfl]

section

variable {s s' : WMState} {mon : MonitorKey} {drag : ClientKey} {list list' : List ClientKey} {i : Nat}

theorem tiledKeys_dropped (h : Dropped s s' mon drag list') (hl : s.monitorClients.get? mon = some list)
    (hr : Reseated s'.isClientFloating (showsTiled s' mon) list drag i list') :
    tiledKeys s' mon = ((tiledKeys s mon).filter (· != drag)).insertIdx i drag := by
  unfold tiledKeys
  rw [h.list, hl, getD_some, getD_some, hr.part, h.otherTiles_eq (h.sameGround hl hr.perm)]

theorem stripShown_tiles (cfg : TabBehavior) (hl : s.monitorClients.get? mon = some list) :
    stripShown cfg s mon list = (cfg.windowTabs && !(s.monitors.get? mon).any (·.lt == .fullscreen) &&
      !monitorHasVisibleFullscreen s mon && wantsBar (tiledKeys s mon).length) := by
  unfold stripShown monitorHasVisibleFullscreen tiledKeys
  rw [hl]
  rfl

theorem stripShown_after (cfg : TabBehavior) (h : Dropped s s' mon drag list') (hl : s.monitorClients.get? mon = some list)
    (hr : Reseated s'.isClientFloating (showsTiled s' mon) list drag i list')
    (hi : i ≤ ((tiledKeys s mon).filter (· != drag)).length) :
    stripShown cfg s' mon list' = (cfg.windowTabs && !(s.monitors.get? mon).any (·.lt == .fullscreen) &&
      !monitorHasVisibleFullscreen s mon && wantsBar (((tiledKeys s mon).filter (· != drag)).length + 1)) := by
  have hground := h.sameGround hl hr.perm
  rw [stripShown_tiles cfg h.list, hground.fullscreenLayout_eq, hground.monitorHasVisibleFullscreen_eq,
    tiledKeys_dropped h hl hr, length_insertIdx_of_le_length hi]

theorem otherTiles_floating (hfloat : s.isClientFloating drag = true) :
    (tiledKeys s mon).filter (· != drag) = tiledKeys s mon := by
  refine filter_eq_self.2 fun k hk => ?_
  rw [bne_iff_ne]
  rintro rfl
  rw [showsTiled_tiled k (mem_filter.1 hk).2] at hfloat
  cases hfloat

section

variable {cfg : TabBehavior} (h : Dropped s s' mon drag list') (hl : s.monitorClients.get? mon = some list)
   (hr : Reseated s'.isClientFloating (showsTiled s' mon) list drag i list')
include h hl hr

theorem stripShown_dropped (hn : list.Nodup) (hmem : drag ∈ list) (hshown : isClientVisibleOnMonitor s drag mon = true)
    (hi : i ≤ ((tiledKeys s mon).filter (· != drag)).length) (hstrip : bringsUpStrip cfg s mon drag = false) :
    stripShown cfg s' mon list' = stripShown cfg s mon list := by
  rw [stripShown_after cfg h hl hr hi, stripShown_tiles cfg hl]
  unfold bringsUpStrip at hstrip
  cases hfloat : s.isClientFloating drag with
  | false =>
    -- still a tile: as many as before
    have htiles : tiledKeys s mon = list.filter (showsTiled s mon) := by
      unfold tiledKeys
      rw [hl]
      rfl
    have hdrag : drag ∈ tiledKeys s mon := by
      rw [htiles, mem_filter]
      refine ⟨hmem, ?_⟩
      unfold showsTiled
      rw [hshown, hfloat]
      rfl
    have hnodup : (tiledKeys s mon).Nodup := htiles ▸ hn.filter _
    have hpos := length_pos_of_mem hdrag
    rw [← hnodup.erase_eq_filter, length_erase_of_mem hdrag, Nat.sub_add_cancel hpos]
  | true =>
    rw [hfloat, Bool.true_and] at hstrip
    rw [otherTiles_floating hfloat]
    by_cases hone : (tiledKeys s mon).length = 1
    · rw [hone, beq_self_eq_true, Bool.and_true] at hstrip
      rw [hstrip, Bool.false_and, Bool.false_and]
    · -- one tile more makes no strip
      have hbar : wantsBar ((tiledKeys s mon).length + 1) = wantsBar (tiledKeys s mon).length := by
        unfold wantsBar
        rw [decide_eq_decide]
        omega
      rw [hbar]

theorem stripShown_brought_up (hi : i ≤ ((tiledKeys s mon).filter (· != drag)).length) (hstrip : bringsUpStrip cfg s mon drag = true) :
    stripShown cfg s mon list = false ∧ stripShown cfg s' mon list' = true := by
  obtain ⟨hmay, hsingle⟩ := Bool.and_eq_true_iff.1 hstrip
  obtain ⟨hfloat, hone⟩ := Bool.and_eq_true_iff.1 hsingle
  rw [stripShown_after cfg h hl hr hi, stripShown_tiles cfg hl, otherTiles_floating hfloat, eq_of_beq hone, hmay]
  exact ⟨rfl, rfl⟩

end

theorem monitorWorkArea_dropped {cfg : LayoutConfig} (hg : SameGround s s' mon)
    (hstrip : tabBarReserved cfg.tabs s' mon = tabBarReserved cfg.tabs s mon) :
    monitorWorkArea cfg s' mon = monitorWorkArea cfg s mon := by
  unfold monitorWorkArea
  rw [hg.monitorShowsStatusBar_eq, hg.untabbed_eq, hstrip]

end

/-! ## The rectangles -/

/-- What the preview and the arrange hand to the calculators. -/
def layoutParams (m : WMMonitor) (screenArea : Rect) : LayoutParams := ⟨screenArea, m.layout.nMaster, m.layout.mFact, m.layout.gap⟩

def slotOf (drag : ClientKey) (results : List (LayoutResult ClientKey)) : Option Rect :=
  (results.find? (·.key == drag)).map (·.rect)

/-- The slot of the dragged window at an index of the tiles, on a work area. -/
def attachSlot (cfg : LayoutConfig) (s : WMState) (mon : MonitorKey) (m : WMMonitor) (drag : ClientKey) (i : Nat)
    (area : Option Rect) : Option Rect :=
  (layoutCalcFn m.lt).bind fun calculate =>
    slotOf drag (calculate (layoutParams m (layoutAttachArea m.lt (area.getD m.work) (some m.rect)))
      ((((tiledKeys s mon).filter (· != drag)).insertIdx i drag).map (layoutTile cfg s)))

section

variable {cfg : LayoutConfig} {s : WMState} {mon : MonitorKey} {m : WMMonitor} {drag : ClientKey} {area : Option Rect}

theorem pickBestCandidate_mem {candidates : List (Nat × Rect)} {best : Nat × Rect}
    (h : pickBestCandidate candidates px py = some best) : best ∈ candidates := by
  have scan : ∀ {step : Option (Nat × Rect) → Nat × Rect → Option (Nat × Rect)},
      (∀ b c, step b c = some c ∨ step b c = b) → ∀ (l : List (Nat × Rect)) (b : Option (Nat × Rect)),
        l.foldl step b = some best → best ∈ l ∨ b = some best := by
    intro step hstep l
    induction l with
    | nil => exact fun b hb => .inr hb
    | cons c l ih =>
      intro b hb
      rcases ih _ hb with hmem | hstart
      · exact .inl (mem_cons_of_mem _ hmem)
      · rcases hstep b c with e | e
        · rw [e] at hstart
          exact .inl (mem_cons.2 (.inl (some.inj hstart).symm))
        · exact .inr (e ▸ hstart)
  refine (scan (fun b c => ?_) candidates none h).resolve_right fun e => nomatch e
  dsimp only
  split
  · exact .inl rfl
  · exact .inr rfl

theorem mem_otherTiles {tile : Tile} (h : tile ∈ otherTiles s mon drag) :
    ∃ c, s.clients.get? tile.1 = some c ∧ tile.2.1 = c.state.clientFact :=
  mem_collectTileableClients (mem_filter.1 h).1

/-- A planned slot is the one the calculator gives the window among the other tiles. -/
theorem planLayoutAttach_some {i : Nat} {rect : Rect} (hm : s.monitors.get? mon = some m)
    (h : planLayoutAttach cfg s mon drag m.lt px py = some (some (i, rect))) :
    ∃ area, monitorWorkArea cfg s mon = some area ∧ i ≤ ((tiledKeys s mon).filter (· != drag)).length ∧
      (m.lt = .vstack → i = 0) ∧ attachSlot cfg s mon m drag i area = some rect := by
  have hkeys := otherTiles_keys s mon drag
  have hlen : (otherTiles s mon drag).length = ((tiledKeys s mon).filter (· != drag)).length := by
    rw [← hkeys, length_map]
  have hsim : ((otherTiles s mon drag).map fun tile : Tile =>
      LayoutClient.mk tile.1 tile.2.1
        (tiledClientBorderWidth cfg.borderPx ((s.clients.get? tile.1).any (·.state.noDecorations)))) =
      ((tiledKeys s mon).filter (· != drag)).map (layoutTile cfg s) := by
    rw [← hkeys, List.map_map]
    refine map_congr_left fun tile htile => ?_
    obtain ⟨c, hc, hfact⟩ := mem_otherTiles htile
    rw [Function.comp_apply, layoutTile, hc, hfact]
    rfl
  unfold planLayoutAttach at h
  unfold attachSlot
  cases hcalc : layoutCalcFn m.lt with
  | none =>
    rw [hcalc] at h
    cases h
  | some calculate =>
    rw [hcalc] at h
    unfold getMonitorInfo at h
    rw [hm] at h
    cases harea : monitorWorkArea cfg s mon with
    | none =>
      rw [harea] at h
      cases h
    | some area =>
      rw [harea] at h
      have hbest := pickBestCandidate_mem (some.inj h)
      obtain ⟨index, hindex, hslot⟩ := mem_filterMap.1 hbest
      obtain ⟨result, hresult, heq⟩ := map_eq_some_iff.1 hslot
      obtain ⟨rfl, rfl⟩ := Prod.mk.inj heq
      have hle : index ≤ ((tiledKeys s mon).filter (· != drag)).length := by
        unfold candidateIndices at hindex
        split at hindex
        · rw [mem_singleton] at hindex
          omega
        · rw [mem_range, hlen] at hindex
          omega
      refine ⟨area, rfl, hle, fun hv => ?_, ?_⟩
      · unfold candidateIndices at hindex
        rw [if_pos hv, mem_singleton] at hindex
        exact hindex
      · have hfound : (calculate (layoutParams m (layoutAttachArea m.lt (area.getD m.work) (some m.rect)))
            (((otherTiles s mon drag).map fun tile : Tile => LayoutClient.mk tile.1 tile.2.1
              (tiledClientBorderWidth cfg.borderPx ((s.clients.get? tile.1).any (·.state.noDecorations)))).insertIdx
                (min index (((otherTiles s mon drag).map _).length)) (layoutTile cfg s drag))).find? (·.key == drag) =
              some result := hresult
        rw [hsim, length_map, Nat.min_eq_left hle] at hfound
        unfold slotOf
        rw [bind_some, map_insertIdx, hfound]
        rfl

theorem monitorWorkArea_bordered {list : List ClientKey} (hl : s.monitorClients.get? mon = some list) (tiles : List Tile) :
    monitorWorkArea cfg (applySmartBorders cfg s mon tiles).1 mon = monitorWorkArea cfg s mon := by
  obtain ⟨hmonitors, hlists⟩ := @applySmartBorders_frame cfg s mon tiles
  have hclients := @applySmartBorders_get? cfg s mon tiles
  generalize (applySmartBorders cfg s mon tiles).1 = bordered at hmonitors hlists hclients ⊢
  have hground : SameGround s bordered mon := by
    refine ⟨fun k => ?_, by rw [hmonitors], by rw [hlists]⟩
    rw [hclients]
    split
    · rw [Option.map_map]
      rfl
    · rfl
  have hfloating : bordered.isClientFloating = s.isClientFloating := by
    funext k
    unfold isClientFloating
    rw [hclients]
    split
    · rw [Option.any_map]
      rfl
    · rfl
  refine monitorWorkArea_dropped hground ?_
  rw [tabBarReserved_eq hl, tabBarReserved_eq (hlists ▸ hl), hground.stripShown_eq hfloating]

theorem collectTileableClients_isEmpty (hne : tiledKeys s mon ≠ []) : (collectTileableClients s mon).isEmpty = false := by
  rw [← collectTileableClients_keys] at hne
  exact isEmpty_eq_false_iff.2 fun e => hne (e ▸ rfl)

theorem layoutInputs_eq (hm : s.monitors.get? mon = some m) (harea : monitorWorkArea cfg s mon = some area)
    (hne : tiledKeys s mon ≠ []) :
    layoutInputs cfg s mon = some (some (layoutParams m (area.getD m.work), collectTileableClients s mon,
      (applySmartBorders cfg s mon (collectTileableClients s mon)).1)) := by
  unfold layoutInputs getMonitorInfo
  rw [hm, harea]
  dsimp only
  rw [bind_eq_bind, bind_some, collectTileableClients_isEmpty hne, if_neg Bool.false_ne_true]
  unfold applySmartBorders
  rw [hm]
  rfl

theorem selectedFirst_eq {raw : List Tile} {rest : List ClientKey} (h : raw.map Prod.fst = key :: rest) :
    selectedFirst (some key) raw = raw := by
  cases raw with
  | nil => cases h
  | cons tile raw =>
    have hkey : tile.1 = key := (List.cons.inj h).1
    unfold selectedFirst
    rw [bind_some, findIdx?_cons, if_pos (by rw [hkey]; exact beq_self_eq_true key)]
    rfl

section

variable {list : List ClientKey} (hm : s.monitors.get? mon = some m) (hl : s.monitorClients.get? mon = some list)
include hm hl

theorem arrangedRects_eq (harea : monitorWorkArea cfg s mon = some area) (hne : tiledKeys s mon ≠ []) {calculate : Calculator}
    (hcalc : layoutCalcFn m.lt = some calculate) (hfirst : m.lt = .vstack → ∃ key rest, m.sel = some key ∧ tiledKeys s mon = key :: rest) :
    arrangedRects cfg s mon = some (calculate (layoutParams m (layoutAttachArea m.lt (area.getD m.work) (some m.rect)))
      ((tiledKeys s mon).map (layoutTile cfg s))) := by
  have hinputs := layoutInputs_eq hm harea hne
  have hkeys := collectTileableClients_keys s mon
  have hdrawn := @toLayoutClients_eq cfg s mon _ _ (fun _ h => h)
    fun tile => @mem_collectTileableClients s mon tile
  rw [hkeys] at hdrawn
  have hwrapped : ∀ calculate : Calculator, tilingLayoutWrapper cfg s mon calculate =
      some (calculate (layoutParams m (area.getD m.work)) ((tiledKeys s mon).map (layoutTile cfg s))) := by
    intro calculate
    unfold tilingLayoutWrapper
    rw [hinputs, ← hdrawn]
    rfl
  unfold arrangedRects
  rw [hm]
  dsimp only
  cases hlt : m.lt with
  | vstack =>
    rw [hlt] at hcalc
    obtain ⟨key, rest, hsel, htiles⟩ := hfirst hlt
    obtain rfl := some.inj hcalc
    unfold vstack
    rw [hinputs]
    show some (calculateVstack _ (toLayoutClients cfg _ (selectedFirst ((Option.bind
      ((applySmartBorders cfg s mon (collectTileableClients s mon)).1.monitors.get? mon) _)) _))) = _
    rw [(applySmartBorders_frame _).1, hm, bind_some, hsel, selectedFirst_eq (hkeys.trans htiles), hdrawn]
    rfl
  | fullscreen =>
    rw [hlt] at hcalc
    obtain rfl := some.inj hcalc
    unfold fullscreenLayout calculateFullscreen
    rw [hm, ← hkeys, List.map_map, List.map_map]
    dsimp only
    rw [List.map_map]
    rfl
  | monocle =>
    rw [hlt] at hcalc
    obtain rfl := some.inj hcalc
    unfold monocle
    dsimp only
    rw [collectTileableClients_isEmpty hne, if_neg Bool.false_ne_true]
    show (monitorWorkArea cfg (applySmartBorders cfg s mon (collectTileableClients s mon)).1 mon).bind _ = _
    rw [monitorWorkArea_bordered hl, harea, bind_some, hdrawn]
    unfold getMonitorInfo
    rw [(applySmartBorders_frame _).1, hm]
    rfl
  | scrolling | float | any =>
    rw [hlt] at hcalc
    cases hcalc
  | _ =>
    rw [hlt] at hcalc
    obtain rfl := some.inj hcalc
    exact hwrapped _

/-- The arrange that follows a drop lays out the tiles of the preview, on the work area there is then. -/
theorem arrangedRects_dropped {s' : WMState} {list' : List ClientKey} {i : Nat} (h : Dropped s s' mon drag list')
    (hr : Reseated s'.isClientFloating (showsTiled s' mon) list drag i list') (hi : i ≤ ((tiledKeys s mon).filter (· != drag)).length)
    (harea : monitorWorkArea cfg s' mon = some area') (hcalc : (layoutCalcFn m.lt).isSome = true)
    (hfirst : m.lt = .vstack → i = 0 ∧ (s'.monitors.get? mon).bind (·.sel) = some drag) :
    (arrangedRects cfg s' mon).bind (slotOf drag) = attachSlot cfg s mon m drag i area' := by
  have htiles := tiledKeys_dropped h hl hr
  have hmonitor := h.monitor
  rw [hm, map_some] at hmonitor
  obtain ⟨m', hm', hface⟩ := map_eq_some_iff.1 hmonitor
  obtain ⟨-, hwork, hrect, hlayout, hlt⟩ := WMMonitor.face_eq hface
  obtain ⟨calculate, hcalculate⟩ := isSome_iff_exists.1 hcalc
  have hne : tiledKeys s' mon ≠ [] := by
    rw [htiles]
    exact ne_nil_of_mem ((mem_insertIdx hi).2 (.inl rfl))
  rw [arrangedRects_eq hm' h.list harea hne (hlt ▸ hcalculate) fun hv => ?_]
  · unfold attachSlot layoutParams
    rw [hcalculate, hlt, hwork, hrect, hlayout, htiles, h.layoutTile_eq]
    rfl
  · obtain ⟨rfl, hsel⟩ := hfirst (hlt ▸ hv)
    rw [hm'] at hsel
    exact ⟨drag, _, hsel, htiles⟩

end

end

/-! ## Preview and drop -/

/-- The drop finds the monitor as the preview took it to be. -/
structure AsPreviewed (cfg : LayoutConfig) (ctx : DeskContext) (d : Desk) (mon : MonitorKey) (drag : ClientKey)
    (m : WMMonitor) : Prop where
  shown : isClientVisibleOnMonitor d.wm drag mon = true
  /-- A V-stack puts the focused window first. -/
  selectable : m.lt = .vstack → isApplicationFocusEligible d.wm drag = true ∧ ctx.locked mon = false
  strip : bringsUpStrip cfg.tabs d.wm mon drag = false

/-- The dropped window is in the slot that was planned, and the others are where they were. -/
structure LandsInSlot (cfg : LayoutConfig) (s s' : WMState) (mon : MonitorKey) (drag : ClientKey) (list : List ClientKey)
    (i : Nat) (rect : Rect) : Prop where
  list : ∃ list', s'.monitorClients.get? mon = some list' ∧ list'.Perm list ∧ Grouped s'.isClientFloating list' ∧
    list'.filter (· != drag) = list.filter (· != drag)
  tiled : tiledKeys s' mon = ((tiledKeys s mon).filter (· != drag)).insertIdx i drag
  rect : (arrangedRects cfg s' mon).bind (slotOf drag) = some rect

section

variable {ctx : DeskContext} {r : DeskReading} {d : Desk} {mon : MonitorKey} {drag : ClientKey} {i : Nat}

theorem applyAttach_selects (hon : d.wm.monOf drag = some mon) (he : isApplicationFocusEligible d.wm drag = true)
    (hv : isClientVisibleOnMonitor d.wm drag mon = true) (hl : ctx.locked mon = false) :
    ((d.applyAttach ctx r drag mon i).wm.monitors.get? mon).bind (·.sel) = some drag := by
  obtain ⟨c, m, hc, hmon, hshows⟩ := visible_iff.1 hv
  unfold Desk.applyAttach
  rw [attachDraggedClient_eq hon]
  obtain ⟨hclients, hmonitors⟩ := retile_frame d.wm drag mon (((otherTiles d.wm mon drag)[i]?).map (·.1))
  generalize retile d.wm drag mon _ = s at hclients hmonitors ⊢
  have hdrag : s.clients.get? drag = some c.reclaim := by
    rw [hclients, modifyClient_get?, if_pos rfl, hc]
    rfl
  refine focus_selects ?_ ?_ (visible_iff.2 ⟨c.reclaim, m, hdrag, hmonitors ▸ hmon, hshows⟩) hl
  · unfold monOf at hon ⊢
    rw [hc] at hon
    rw [hdrag]
    exact hon
  · unfold isApplicationFocusEligible at he ⊢
    rw [hc] at he
    rw [hdrag]
    exact he

end

/-- With the tab strip the window would be laid out below it. -/
def belowStrip (cfg : TabBehavior) (area : Option Rect) : Option Rect :=
  area.map (withoutTabBar · (roundI32 (barHeight cfg.tabBarHeight)))

theorem monitorWorkArea_brought_up {cfg : LayoutConfig} {s s' : WMState} {mon : MonitorKey} {list list' : List ClientKey}
    (hg : SameGround s s' mon) (hl : s.monitorClients.get? mon = some list) (hl' : s'.monitorClients.get? mon = some list')
    (hbefore : stripShown cfg.tabs s mon list = false) (hafter : stripShown cfg.tabs s' mon list' = true) :
    monitorWorkArea cfg s' mon = (monitorWorkArea cfg s mon).map (belowStrip cfg.tabs) := by
  have hnone : ∀ area : Rect, withoutTabBar area 0 = area := fun _ => rfl
  unfold monitorWorkArea belowStrip
  rw [tabBarReserved_eq hl, tabBarReserved_eq hl', hbefore, hafter, hg.monitorShowsStatusBar_eq, hg.untabbed_eq, Option.map_map]
  simp only [if_true, Bool.false_eq_true, if_false, hnone]
  refine congrArg (Option.map · _) (funext fun area => ?_)
  rw [Function.comp_apply, Option.map_id']

section

variable {cfg : LayoutConfig} {ctx : DeskContext} {r : DeskReading} {d : Desk} {mon : MonitorKey} {drag : ClientKey}
  {m : WMMonitor} {list list' : List ClientKey} {i : Nat} {rect : Rect}

/-- A window that shows lands in its slot, on whatever work area there is after the drop. -/
theorem landsInSlot_iff (hm : d.wm.monitors.get? mon = some m) (hon : d.wm.monOf drag = some mon)
    (hl : d.wm.monitorClients.get? mon = some list) (hdrop : Dropped d.wm (d.applyAttach ctx r drag mon i).wm mon drag list')
    (hr : Reseated (d.applyAttach ctx r drag mon i).wm.isClientFloating
      (showsTiled (d.applyAttach ctx r drag mon i).wm mon) list drag i list')
    (hi : i ≤ ((tiledKeys d.wm mon).filter (· != drag)).length) (hcalc : (layoutCalcFn m.lt).isSome = true)
    (hzero : m.lt = .vstack → i = 0) (hshown : isClientVisibleOnMonitor d.wm drag mon = true)
    (hselectable : m.lt = .vstack → isApplicationFocusEligible d.wm drag = true ∧ ctx.locked mon = false)
    (harea : monitorWorkArea cfg (d.applyAttach ctx r drag mon i).wm mon = some area') :
    LandsInSlot cfg d.wm (d.applyAttach ctx r drag mon i).wm mon drag list i rect ↔
      attachSlot cfg d.wm mon m drag i area' = some rect := by
  have hrect := arrangedRects_dropped hm hl hdrop hr hi harea hcalc fun hv =>
    ⟨hzero hv, applyAttach_selects hon (hselectable hv).1 hshown (hselectable hv).2⟩
  rw [← hrect]
  exact ⟨fun h => h.rect, fun h => ⟨⟨list', hdrop.list, hr.perm, hr.grouped, hr.rest⟩, tiledKeys_dropped hdrop hl hr, h⟩⟩

end

/-- A dropped window lands where the preview showed it unless it does not show, or the drop brings up the tab strip: then
it lands there only if the strip makes no difference to its rectangle. -/
theorem dropped_where_previewed (cfg : LayoutConfig) (ctx : DeskContext) (r : DeskReading) {d : Desk} {mon : MonitorKey}
    {drag : ClientKey} {m : WMMonitor} {list : List ClientKey} (hm : d.wm.monitors.get? mon = some m)
    (hon : d.wm.monOf drag = some mon) (hl : d.wm.monitorClients.get? mon = some list) (hn : list.Nodup)
    (hg : Grouped d.wm.isClientFloating list) (hmem : drag ∈ list) {px py : Int} {i : Nat} {rect : Rect}
    (hplan : planLayoutAttach cfg d.wm mon drag m.lt px py = some (some (i, rect))) :
    (AsPreviewed cfg ctx d mon drag m →
        LandsInSlot cfg d.wm (d.applyAttach ctx r drag mon i).wm mon drag list i rect) ∧
      (LandsInSlot cfg d.wm (d.applyAttach ctx r drag mon i).wm mon drag list i rect →
        isClientVisibleOnMonitor d.wm drag mon = true ∧
        (bringsUpStrip cfg.tabs d.wm mon drag = true → ∃ area, monitorWorkArea cfg d.wm mon = some area ∧
          ((m.lt = .vstack → isApplicationFocusEligible d.wm drag = true ∧ ctx.locked mon = false) →
            attachSlot cfg d.wm mon m drag i (belowStrip cfg.tabs area) = some rect))) := by
  obtain ⟨area, harea, hi, hzero, hslot⟩ := planLayoutAttach_some hm hplan
  have hcalc : (layoutCalcFn m.lt).isSome = true := by
    unfold attachSlot at hslot
    cases hlayout : layoutCalcFn m.lt with
    | none =>
      rw [hlayout] at hslot
      cases hslot
    | some calculate => rfl
  refine ⟨fun h => ?_, fun h => ?_⟩
  · obtain ⟨list', hdrop, hr⟩ := @applyAttach_reseated ctx r _ _ _ _ _ hon hl hn hg hmem h.shown hi
    have hground := hdrop.sameGround hl hr.perm
    refine (landsInSlot_iff hm hon hl hdrop hr hi hcalc hzero h.shown h.selectable ?_).2 hslot
    refine (monitorWorkArea_dropped hground ?_).trans harea
    rw [tabBarReserved_eq hl, tabBarReserved_eq hdrop.list, stripShown_dropped hdrop hl hr hn hmem h.shown hi h.strip]
  · have hshown : isClientVisibleOnMonitor d.wm drag mon = true := by
      obtain ⟨list', hlist', hperm, -, -⟩ := h.list
      have hdrop := @attachDraggedClient_dropped ctx r _ _ _ _ hon hl
        fun s => ((otherTiles s mon drag)[i]?).map (·.1)
      rw [← Option.some.inj (hdrop.list.symm.trans hlist')] at hperm
      have hdrag : drag ∈ tiledKeys (d.applyAttach ctx r drag mon i).wm mon := by
        rw [h.tiled]
        exact (mem_insertIdx hi).2 (.inl rfl)
      rw [← (hdrop.sameGround hl hperm).isClientVisibleOnMonitor_eq]
      exact (Bool.and_eq_true_iff.1 (mem_filter.1 hdrag).2).1
    refine ⟨hshown, fun hstrip => ⟨area, harea, fun hselectable => ?_⟩⟩
    obtain ⟨list', hdrop, hr⟩ := @applyAttach_reseated ctx r _ _ _ _ _ hon hl hn hg hmem hshown hi
    have hground := hdrop.sameGround hl hr.perm
    obtain ⟨hbefore, hafter⟩ := stripShown_brought_up hdrop hl hr hi hstrip
    refine (landsInSlot_iff hm hon hl hdrop hr hi hcalc hzero hshown hselectable ?_).1 h
    rw [monitorWorkArea_brought_up hground hl hdrop.list hbefore hafter, harea]
    rfl

namespace DropSample

def screen : MonitorKey := ⟨1, 1⟩
def editor : ClientKey := ⟨1, 1⟩
def shell : ClientKey := ⟨2, 1⟩

def window (isFloating : Bool) : WMClient where
  geometry := { rect := ⟨0, 20, 400, 300⟩ }
  state := { isFloating := isFloating, isDragFloating := isFloating, tags := 1 }
  mon := some screen

def monitor : WMMonitor :=
  { WMMonitor.new with
    tagSet := fun _ => 1
    lt := .tile
    geometry := ⟨0, 0, 1000, 620, 0, 0, 1000, 620⟩ }

/-- A shell that a drag took out of the layout, and the editor that stayed. -/
def desk : Desk where
  wm :=
    { clients := ⟨[(editor, window false), (shell, window true)], by decide⟩
      monitors := ⟨[(screen, monitor)], nodup_singleton screen⟩
      monitorClients := ⟨[(screen, [editor, shell])], nodup_singleton screen⟩
      monitorStack := ⟨[(screen, [shell, editor])], nodup_singleton screen⟩
      monitorOrder := [screen]
      selMon := some screen }
  urgent := fun _ => false
  demandsAttention := fun _ => false
  focused := some 2
  decorated := fun key => key == shell

def context : DeskContext := ⟨fun key => .ofNat 64 key.idx, fun _ => false⟩

def reading : DeskReading := ⟨0x1ff, true, fun _ => false, id⟩

/-- A bar of 20 pixels, borders of 2, and a strip of 24 where there are tabs. -/
def config (windowTabs : Bool) : LayoutConfig := ⟨AreaSample.context 20, ⟨windowTabs, 24.0⟩, 2, 0⟩

end DropSample

open DropSample

/-- Without tabs the shell lands beside the editor, where the preview was. -/
theorem dropped_where_previewed_beside :
    LandsInSlot (DropSample.config false) DropSample.desk.wm
      (DropSample.desk.applyAttach DropSample.context DropSample.reading DropSample.shell DropSample.screen 1).wm
      DropSample.screen DropSample.shell [DropSample.editor, DropSample.shell] 1 ⟨550, 20, 446, 596⟩ := by
  have hplan : planLayoutAttach (config false) DropSample.desk.wm screen shell
      monitor.lt 990 300 = some (some (1, ⟨550, 20, 446, 596⟩)) := by decide +kernel
  have hlands := dropped_where_previewed (config false) context reading rfl rfl rfl
    (by decide) (by unfold Grouped; decide) (by decide) hplan
  exact hlands.1 ⟨by decide, fun h => absurd h (by decide), by decide⟩

/-- With tabs the drop brings up a strip of 24 pixels, which the preview left out. -/
theorem dropped_below_strip :
    planLayoutAttach (DropSample.config true) DropSample.desk.wm DropSample.screen DropSample.shell .tile 990 300 =
        some (some (1, ⟨550, 20, 446, 596⟩)) ∧
      (arrangedRects (DropSample.config true) (DropSample.desk.applyAttach DropSample.context DropSample.reading
        DropSample.shell DropSample.screen 1).wm DropSample.screen).bind (slotOf DropSample.shell) =
          some ⟨550, 44, 446, 572⟩ ∧
      ¬ LandsInSlot (DropSample.config true) DropSample.desk.wm
        (DropSample.desk.applyAttach DropSample.context DropSample.reading DropSample.shell DropSample.screen 1).wm
        DropSample.screen DropSample.shell [DropSample.editor, DropSample.shell] 1 ⟨550, 20, 446, 596⟩ := by
  have hlive : (arrangedRects (config true) (DropSample.desk.applyAttach context reading
      shell screen 1).wm screen).bind (slotOf shell) =
        some ⟨550, 44, 446, 572⟩ := by decide +kernel
  refine ⟨by decide +kernel, hlive, fun h => ?_⟩
  have hrect := h.rect.symm.trans hlive
  exact absurd (Option.some.inj hrect) (by decide)

end Jwm
