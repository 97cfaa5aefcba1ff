/-
What arranging a monitor hands to the layout calculators (`jwm/layout/implementations.rs`, `jwm/layout/arrange.rs`): the
work area without the tab strip, the visible tiles with their borders, and the order of a V-stack. The strips of the
scrolling layout are not laid out here.
-/
import Jwm.Layout.Cards
import Jwm.Layout.Columns
import Jwm.Wm.FocusAgreement
import Jwm.Wm.WindowTabs
import Jwm.Wm.WorkArea

namespace Jwm

open Layout
open List Option

/-- What the configuration says about arranging. -/
structure LayoutConfig where
  panels : PanelContext
  tabs : TabBehavior
  borderPx : Int
  layoutGap : Int

/-! ## The source -/

def monitorHasVisibleFullscreen (s : WMState) (mon : MonitorKey) : Bool :=
  ((s.monitorClients.get? mon).getD []).any (showsFullscreen s mon)

/-- The bar is wanted on the tag, and no fullscreen window covers it. -/
def monitorShowsStatusBar (s : WMState) (mon : MonitorKey) : Bool :=
  match s.monitors.get? mon with
  | none => true
  | some m => (m.pertag.bind fun p => p.showBars[p.curTag]?).getD true && !monitorHasVisibleFullscreen s mon

/-- `monitor_work_area`; the outer `none` is an overflow. -/
def monitorWorkArea (cfg : LayoutConfig) (s : WMState) (mon : MonitorKey) : Option (Option Rect) :=
  (monitorWorkAreaUntabbedWithBar cfg.panels s mon (monitorShowsStatusBar s mon)).map fun area =>
    area.map fun area => withoutTabBar area (tabBarReserved cfg.tabs s mon)

/-- The work rectangle, the share of the masters and their number. -/
def getMonitorInfo (s : WMState) (mon : MonitorKey) : Rect × Float32 × Nat :=
  match s.monitors.get? mon with
  | none => (⟨0, 0, 0, 0⟩, 0.55, 1)
  | some m => (m.work, m.layout.mFact, m.layout.nMaster)

/-- A tileable client: its key, its share, and its border. -/
abbrev Tile := ClientKey × Float32 × Int

def collectTileableClients (s : WMState) (mon : MonitorKey) : List Tile :=
  ((s.monitorClients.get? mon).getD []).filterMap fun key =>
    (s.clients.get? key).bind fun c =>
      if !c.state.isFloating && isClientVisibleOnMonitor s key mon then some (key, c.state.clientFact, c.geometry.borderW)
      else none

def tiledClientBorderWidth (configured : Int) (noDecorations : Bool) : Int := if noDecorations then 0 else configured

def drawTiledBorder (cfg : LayoutConfig) (c : WMClient) : WMClient :=
  { c with geometry := { c.geometry with borderW := tiledClientBorderWidth cfg.borderPx c.state.noDecorations } }

/-- The configured border on every tile without a frame of its own; with the gap. -/
def applySmartBorders (cfg : LayoutConfig) (s : WMState) (mon : MonitorKey) (clients : List Tile) : WMState × Int :=
  let gap := ((s.monitors.get? mon).map (·.layout.gap)).getD cfg.layoutGap
  (clients.foldl (fun s tile => s.modifyClient tile.1 (drawTiledBorder cfg)) s, gap)

def layoutInputs (cfg : LayoutConfig) (s : WMState) (mon : MonitorKey) :
    Option (Option (LayoutParams × List Tile × WMState)) := do
  let (work, mFact, nMaster) := getMonitorInfo s mon
  let screenArea := (← monitorWorkArea cfg s mon).getD work
  let rawClients := collectTileableClients s mon
  if rawClients.isEmpty then return none
  let (s, gap) := applySmartBorders cfg s mon rawClients
  return some (⟨screenArea, nMaster, mFact, gap⟩, rawClients, s)

def toLayoutClients (cfg : LayoutConfig) (s : WMState) (raw : List Tile) : List (LayoutClient ClientKey) :=
  raw.map fun (key, factor, _) =>
    { key, factor, borderW := ((s.clients.get? key).map (·.geometry.borderW)).getD cfg.borderPx }

abbrev Calculator := LayoutParams → List (LayoutClient ClientKey) → List (LayoutResult ClientKey)

def tilingLayoutWrapper (cfg : LayoutConfig) (s : WMState) (mon : MonitorKey) (calculate : Calculator) :
    Option (List (LayoutResult ClientKey)) := do
  match ← layoutInputs cfg s mon with
  | none => return []
  | some (params, rawClients, s) => return calculate params (toLayoutClients cfg s rawClients)

def selectedFirst (sel : Option ClientKey) (raw : List Tile) : List Tile :=
  match sel.bind fun key => raw.findIdx? (·.1 == key) with
  | none => raw
  | some pos =>
    match raw[pos]? with
    | none => raw
    | some tile => tile :: raw.eraseIdx pos

def vstack (cfg : LayoutConfig) (s : WMState) (mon : MonitorKey) : Option (List (LayoutResult ClientKey)) := do
  match ← layoutInputs cfg s mon with
  | none => return []
  | some (params, rawClients, s) =>
    let ordered := selectedFirst ((s.monitors.get? mon).bind (·.sel)) rawClients
    return calculateVstack params (toLayoutClients cfg s ordered)

def fullscreenLayout (s : WMState) (mon : MonitorKey) : List (LayoutResult ClientKey) :=
  match s.monitors.get? mon with
  | none => []
  | some m =>
    let rawClients := collectTileableClients s mon
    calculateFullscreen ⟨m.rect, 0, 0.0, 0⟩ (rawClients.map fun (key, factor, _) => { key, factor, borderW := 0 })

def monocle (cfg : LayoutConfig) (s : WMState) (mon : MonitorKey) : Option (List (LayoutResult ClientKey)) := do
  let rawClients := collectTileableClients s mon
  if rawClients.isEmpty then return []
  let (bordered, _) := applySmartBorders cfg s mon rawClients
  let screenArea := (← monitorWorkArea cfg bordered mon).getD (getMonitorInfo bordered mon).1
  return calculateMonocle ⟨screenArea, 0, 0.0, 0⟩ (toLayoutClients cfg bordered rawClients)

/-- The rectangles that `arrangemon` gets from the calculator of the monitor's layout. -/
def arrangedRects (cfg : LayoutConfig) (s : WMState) (mon : MonitorKey) : Option (List (LayoutResult ClientKey)) :=
  match s.monitors.get? mon with
  | none => some []
  | some m =>
    match m.lt with
    | .tile => tilingLayoutWrapper cfg s mon calculateTile
    | .monocle => monocle cfg s mon
    | .fibonacci => tilingLayoutWrapper cfg s mon calculateFibonacci
    | .centeredMaster => tilingLayoutWrapper cfg s mon calculateCenteredMaster
    | .bstack => tilingLayoutWrapper cfg s mon calculateBstack
    | .grid => tilingLayoutWrapper cfg s mon calculateGrid
    | .deck => tilingLayoutWrapper cfg s mon calculateDeck
    | .threeCol => tilingLayoutWrapper cfg s mon calculateThreeCol
    | .tatami => tilingLayoutWrapper cfg s mon calculateTatami
    | .fullscreen => some (fullscreenLayout s mon)
    | .vstack => vstack cfg s mon
    | .scrolling | .float | .any => some []

/-! ## Tiles -/

def layoutTile (cfg : LayoutConfig) (s : WMState) (key : ClientKey) : LayoutClient ClientKey where
  key := key
  factor := ((s.clients.get? key).map (·.state.clientFact)).getD 1.0
  borderW := tiledClientBorderWidth cfg.borderPx ((s.clients.get? key).any (·.state.noDecorations))

section Tiles

variable {cfg : LayoutConfig} {s s' : WMState} {mon : MonitorKey} {key : ClientKey}

theorem shown_alive (h : isClientVisibleOnMonitor s key mon = true) : ∃ c, s.clients.get? key = some c := by
  obtain ⟨c, -, hc, -⟩ := visible_iff.1 h
  exact ⟨c, hc⟩

theorem collectTileableClients_eq (s : WMState) (mon : MonitorKey) :
    collectTileableClients s mon = (tiledKeys s mon).filterMap fun key =>
      (s.clients.get? key).map fun c => (key, c.state.clientFact, c.geometry.borderW) := by
  unfold collectTileableClients tiledKeys
  rw [filterMap_filter]
  refine filterMap_congr fun key _ => ?_
  unfold showsTiled WMState.isClientFloating
  cases s.clients.get? key with
  | none => exact (ite_self _).symm
  | some c =>
    rw [bind_some, any_some, Bool.and_comm]
    rfl

theorem collectTileableClients_keys (s : WMState) (mon : MonitorKey) :
    (collectTileableClients s mon).map Prod.fst = tiledKeys s mon := by
  rw [collectTileableClients_eq, map_filterMap]
  refine (filterMap_congr fun key hkey => ?_).trans filterMap_some
  have hshown := (Bool.and_eq_true_iff.1 (mem_filter.1 hkey).2).1
  obtain ⟨c, hc⟩ := shown_alive hshown
  rw [hc]
  rfl

theorem mem_collectTileableClients {tile : Tile} (h : tile ∈ collectTileableClients s mon) :
    ∃ c, s.clients.get? tile.1 = some c ∧ tile.2.1 = c.state.clientFact := by
  rw [collectTileableClients_eq, mem_filterMap] at h
  obtain ⟨key, -, h⟩ := h
  obtain ⟨c, hc, rfl⟩ := map_eq_some_iff.1 h
  exact ⟨c, hc, rfl⟩

theorem drawTiledBorder_twice (cfg : LayoutConfig) : drawTiledBorder cfg ∘ drawTiledBorder cfg = drawTiledBorder cfg := rfl

theorem applySmartBorders_get? (tiles : List Tile) (k : ClientKey) :
    (applySmartBorders cfg s mon tiles).1.clients.get? k =
      if k ∈ tiles.map Prod.fst then (s.clients.get? k).map (drawTiledBorder cfg) else s.clients.get? k := by
  unfold applySmartBorders
  induction tiles generalizing s with
  | nil => exact (if_neg not_mem_nil).symm
  | cons tile tiles ih =>
    rw [foldl_cons, ih, WMState.modifyClient_get?, map_cons]
    by_cases hk : k = tile.1
    · rw [if_pos hk, if_pos (mem_cons.2 (.inl hk)), Option.map_map, drawTiledBorder_twice, ite_self]
    · rw [if_neg hk]
      by_cases hmem : k ∈ tiles.map Prod.fst
      · rw [if_pos hmem, if_pos (mem_cons_of_mem _ hmem)]
      · rw [if_neg hmem, if_neg fun h => (mem_cons.1 h).elim hk hmem]

theorem applySmartBorders_frame (tiles : List Tile) : (applySmartBorders cfg s mon tiles).1.monitors = s.monitors ∧
      (applySmartBorders cfg s mon tiles).1.monitorClients = s.monitorClients := by
  unfold applySmartBorders
  induction tiles generalizing s with
  | nil => exact ⟨rfl, rfl⟩
  | cons tile tiles ih =>
    rw [foldl_cons]
    exact ih

/-- With their borders drawn the tiles are what the calculators are given, in any order. -/
theorem toLayoutClients_eq {raw raw' : List Tile} (h : ∀ tile ∈ raw', tile ∈ raw)
    (hraw : ∀ tile ∈ raw, ∃ c, s.clients.get? tile.1 = some c ∧ tile.2.1 = c.state.clientFact) :
    toLayoutClients cfg (applySmartBorders cfg s mon raw).1 raw' = (raw'.map Prod.fst).map (layoutTile cfg s) := by
  rw [List.map_map]
  refine map_congr_left fun tile htile => ?_
  have hmem := h tile htile
  obtain ⟨c, hc, hfact⟩ := hraw tile hmem
  obtain ⟨key, factor, border⟩ := tile
  have hdrawn : (applySmartBorders cfg s mon raw).1.clients.get? key = some (drawTiledBorder cfg c) := by
    rw [applySmartBorders_get?, if_pos (List.mem_map_of_mem hmem), hc]
    rfl
  dsimp only [Function.comp_apply] at hc hfact ⊢
  unfold layoutTile
  rw [hdrawn, hc, hfact]
  rfl

end Tiles

end Jwm
