/-
Outputs and the monitors that stand for them (`jwm/monitor.rs`, `jwm/monitor_management.rs`): monitors
are created for new outputs, removed with their output, and refreshed when the outputs change. The
clients of a removed monitor move to another one, or wait without a monitor for the next output.
-/
import Jwm.Core.LayoutParams
import Jwm.Wm.ClientStack
import Mathlib.Data.List.Dedup

namespace Jwm

/-! ## Configuration -/

/-- A `[[layout.tags]]` entry, its layout names resolved by `LayoutEnum::from_name`. -/
structure LayoutTagConfig where
  layout : Option LayoutEnum
  alt : Option LayoutEnum
  nMaster : Option Nat
  mFact : Option Float32
  gap : Option Int
  showBar : Option Bool

/-- What the configuration says about a new monitor. -/
structure MonitorConfig where
  showBar : Bool
  tagsLength : Nat
  layoutDefaults : LayoutDefaults
  hasLayoutTags : Bool
  /-- `layout_for_tag_on_output`, by monitor number, tag and connector. -/
  layoutForTagOnOutput : Int → Nat → Option String → Option LayoutTagConfig

/-- `f32::clamp` to the master factors. -/
def clampMFact (f : Float32) : Float32 := if f < 0.05 then 0.05 else if f > 0.95 then 0.95 else f

/-- One round of `seed_pertag_from_config`. -/
def Pertag.seedTag (p : Pertag) (tag : Nat) (entry : LayoutTagConfig) : Pertag :=
  if p.lts.length ≤ tag then p
  else
    { p with
      lts := (entry.layout.map (p.lts.set tag)).getD p.lts
      prevLts := (entry.alt.map (p.prevLts.set tag)).getD p.prevLts
      nMasters := (entry.nMaster.map fun n => p.nMasters.set tag (min n maxNMaster)).getD p.nMasters
      mFacts := ((entry.mFact.filter (·.isFinite)).map fun f => p.mFacts.set tag (clampMFact f)).getD p.mFacts
      gaps := (entry.gap.map fun g => p.gaps.set tag (max 0 (min maxLayoutGapPx g))).getD p.gaps
      showBars := (entry.showBar.map (p.showBars.set tag)).getD p.showBars }

namespace WMMonitor

def seedPertagFromConfig (m : WMMonitor) (monIndex : Int) (cfg : MonitorConfig) (connector : Option String) : WMMonitor :=
  match m.pertag with
  | none => m
  | some p =>
    if !cfg.hasLayoutTags then m
    else
      let p := (List.range (cfg.tagsLength + 1)).foldl (fun p tag =>
        match cfg.layoutForTagOnOutput monIndex tag connector with
        | none => p
        | some entry => p.seedTag tag entry) p
      reloadCurrentTagContext { m with pertag := some p }

def createmonNumbered (cfg : MonitorConfig) (num : Int) (connector : Option String) : WMMonitor :=
  let d := cfg.layoutDefaults
  let slots := cfg.tagsLength + 1
  let m : WMMonitor := { WMMonitor.new with
    num := num
    tagSet := fun _ => 1
    layoutDefaults := d
    layout := { mFact := d.mFact, nMaster := d.nMaster, gap := d.gap }
    lt := .fibonacci
    prevLt := .tile
    ltSymbol := LayoutEnum.fibonacci.symbol
    pertag := some { Pertag.new cfg.showBar cfg.tagsLength with
      curTag := 1
      prevTag := 1
      nMasters := List.replicate slots d.nMaster
      mFacts := List.replicate slots d.mFact
      gaps := List.replicate slots d.gap } }
  m.seedPertagFromConfig num cfg connector

/-- The monitor covers `r`, and so does its work area until a bar takes its share. -/
def setRect (m : WMMonitor) (r : Rect) : WMMonitor :=
  { m with geometry := { mX := r.x, mY := r.y, mW := r.w, mH := r.h, wX := r.x, wY := r.y, wW := r.w, wH := r.h } }

def rect (m : WMMonitor) : Rect := ⟨m.geometry.mX, m.geometry.mY, m.geometry.mW, m.geometry.mH⟩

def clearSelectionOf (m : WMMonitor) (client : ClientKey) : WMMonitor :=
  { m with
    sel := if m.sel = some client then none else m.sel
    pertag := m.pertag.map fun p => { p with sel := p.sel.map fun slot => if slot = some client then none else slot } }

def setSelectedClientForCurrentTag (m : WMMonitor) (client : Option ClientKey) : WMMonitor :=
  { m with
    sel := client
    pertag := m.pertag.map fun p => { p with sel := p.sel.set (p.clampTag p.curTag) client } }

end WMMonitor

/-! ## New monitors -/

/-- The walk of `lowest_unused_monitor_num` over the sorted numbers. -/
def firstGap : Int → List Int → Int
  | candidate, [] => candidate
  | candidate, num :: used =>
    if num = candidate then firstGap (I32.saturatingAdd candidate 1) used
    else if num > candidate then candidate
    else firstGap candidate used

def lowestUnusedMonitorNum (monitorNums : List Int) : Int :=
  -- on a sorted vector `Vec::dedup` drops every repetition
  firstGap 0 ((monitorNums.filter (0 ≤ ·)).mergeSort (· ≤ ·)).dedup

/-- `usize as i32`. -/
def asI32 (n : Nat) : Int := (BitVec.ofNat 32 n).toInt

structure OutputInfo where
  id : OutputId
  rect : Rect
  stableKey : String
  connector : String
deriving DecidableEq

/-- `output_identity_seed_key`. -/
def OutputInfo.seedKey (o : OutputInfo) : Option String :=
  if o.stableKey ≠ "" then some o.stableKey else if o.connector ≠ "" then some o.connector else none

/-- `Jwm::insert_monitor`, under the key the slot map hands out. -/
def insertMonitor (s : WMState) (key : MonitorKey) (m : WMMonitor) : WMState :=
  { s with
    monitors := s.monitors.insert key m
    monitorOrder := s.monitorOrder ++ [key]
    monitorClients := s.monitorClients.insert key []
    monitorStack := s.monitorStack.insert key [] }

def addMonitor (cfg : MonitorConfig) (s : WMState) (key : MonitorKey) (info : OutputInfo) : WMState :=
  let num := lowestUnusedMonitorNum (s.monitors.entries.map (·.2.num))
  let m := (WMMonitor.createmonNumbered cfg num info.seedKey).setRect info.rect
  let s := insertMonitor s key m
  { s with
    outputMap := s.outputMap.insert key info.id
    selMon := s.selMon.or (some key) }

/-- `createmon_seeded` and `insert_monitor`: the next number is the number of monitors. -/
def insertSeededMonitor (cfg : MonitorConfig) (s : WMState) (key : MonitorKey) (connector : Option String) : WMState :=
  insertMonitor s key (WMMonitor.createmonNumbered cfg (asI32 s.monitorOrder.length) connector)

/-! ## Clients without an output -/

/-- What the rest of the window manager contributes to a change of the outputs. -/
structure HotplugContext where
  /-- `monitor_key_is_locked`. -/
  locked : MonitorKey → Bool
  /-- The clients of `scratchpads`. -/
  scratchpads : List ClientKey
  tagmask : BitVec 32
  /-- The clients of `secondary_bars`. -/
  bars : List ClientKey
  /-- The bar client `retire_disconnected_bar` returns for a monitor. -/
  retired : MonitorKey → Option ClientKey
  /-- Where a client lands on its new output; ownership does not depend on it. -/
  place : ClientKey → ClientGeometry → ClientGeometry

variable (ctx : HotplugContext)

def HotplugContext.parked (s : WMState) : List ClientKey :=
  ctx.scratchpads.filter fun key => (s.clients.get? key).any fun client => client.state.tags &&& ctx.tagmask == 0

def clientsOwnedByMonitor (s : WMState) (monitor : MonitorKey) : List ClientKey :=
  let owned (key : ClientKey) : Bool := s.monOf key == some monitor
  -- the registry is walked too: a client may name the monitor before it is listed
  (((s.monitorClients.get? monitor).getD []).filter owned ++ s.clients.keys.filter owned).eraseDups

/-- One round of `transfer_or_orphan_monitor_clients`. -/
def transferClient (source : MonitorKey) (target : Option MonitorKey) (fallbackTags : BitVec 32)
    (nonReassignable : Option ClientKey) (parked : List ClientKey) (s : WMState) (key : ClientKey) : WMState :=
  let s := { s with
    monitorClients := s.monitorClients.modify source (·.filter (· != key))
    monitorStack := s.monitorStack.modify source (·.filter (· != key))
    monitors := s.monitors.modify source (·.clearSelectionOf key) }
  let s := s.modifyClient key fun client => { client with mon := none }
  if nonReassignable = some key then s
  else
    match target with
    | none => s
    | some target =>
      let s := s.modifyClient key fun client =>
        let tags := if client.state.tags = 0 ∧ key ∉ parked then fallbackTags else client.state.tags
        { client with mon := some target, state := { client.state with tags := tags } }
      { s with
        monitorClients := s.monitorClients.modify target fun clients =>
          if key ∈ clients then clients else clients ++ [key]
        monitorStack := s.monitorStack.modify target fun stack => key :: stack.filter (· != key) }

def transferOrOrphanMonitorClients (s : WMState) (source : MonitorKey) (target : Option MonitorKey)
    (nonReassignable : Option ClientKey) (parked : List ClientKey) : WMState × List ClientKey :=
  let target := target.filter s.monitors.contains
  let fallbackTags := ((target.bind s.monitors.get?).map (·.activeTags)).getD 1
  let owned := clientsOwnedByMonitor s source
  (owned.foldl (transferClient source target fallbackTags nonReassignable parked) s,
    owned.filter fun key => nonReassignable != some key)

def attachableUnassignedClients (s : WMState) (parked bars : List ClientKey) : List ClientKey :=
  let isAttachable (key : ClientKey) : Bool := (s.clients.get? key).any fun client =>
    client.mon.isNone && (!parked.contains key || client.state.isHidden) && !bars.contains key
  ((s.clientOrder ++ s.clients.keys).filter isAttachable).eraseDups

/-- One round of `attach_clients_to_monitor`. -/
def attachClientTo (monitor : MonitorKey) (targetTags : BitVec 32) (preserveZeroTags : List ClientKey) (s : WMState)
    (key : ClientKey) : WMState :=
  match s.clients.get? key with
  | none => s
  | some client =>
    if client.mon.isSome then s
    else
      let s := s.modifyClient key fun client =>
        let tags := if client.state.tags = 0 ∧ key ∉ preserveZeroTags then targetTags else client.state.tags
        { client with mon := some monitor, state := { client.state with tags := tags } }
      { s with
        monitorClients := s.monitorClients.modify monitor fun clients =>
          if key ∈ clients then clients else clients ++ [key]
        monitorStack := s.monitorStack.modify monitor fun stack => key :: stack.filter (· != key) }

def attachClientsToMonitor (s : WMState) (monitor : MonitorKey) (clientKeys preserveZeroTags : List ClientKey) :
    WMState × List ClientKey :=
  match s.monitors.get? monitor with
  | none => (s, [])
  | some target =>
    (clientKeys.foldl (attachClientTo monitor target.activeTags preserveZeroTags) s,
      (clientKeys.filter fun key => (s.clients.get? key).any (·.mon.isNone)).eraseDups)

/-- The geometry of a moved client, then its place in the list. -/
def migrateClient (s : WMState) (key : ClientKey) : WMState :=
  reorderClientInMonitorGroups
    (s.modifyClient key fun client => { client with geometry := ctx.place key client.geometry }) key

def attachUnassignedClientsToSelectedMonitor (s : WMState) : WMState :=
  match s.selMon.or s.monitorOrder.head? with
  | none => s
  | some monitor =>
    let parked := ctx.parked s
    let unassigned := attachableUnassignedClients s parked ctx.bars
    let (s, attached) := attachClientsToMonitor s monitor unassigned parked
    attached.foldl (migrateClient ctx) s

/-- `handle_output_added`, the state it leaves; an output that is mapped already is skipped. -/
def handleOutputAdded (cfg : MonitorConfig) (ctx : HotplugContext) (s : WMState) (key : MonitorKey) (info : OutputInfo) :
    WMState :=
  if s.outputMap.entries.any (·.2 == info.id) then s
  else attachUnassignedClientsToSelectedMonitor ctx (addMonitor cfg s key info)

/-! ## Outputs that go away -/

def removeMonitorState (s : WMState) (monitor : MonitorKey) : WMState :=
  let monitorOrder := s.monitorOrder.filter (· != monitor)
  { s with
    monitors := s.monitors.remove monitor
    outputMap := s.outputMap.remove monitor
    monitorClients := s.monitorClients.remove monitor
    monitorStack := s.monitorStack.remove monitor
    monitorOrder := monitorOrder
    selMon := if s.selMon = some monitor then monitorOrder.head? else s.selMon
    motionMon := if s.motionMon = some monitor then none else s.motionMon }

/-- The monitor that takes the clients of a removed one: the first that is not locked, else the first. -/
def migrationTarget (s : WMState) («from» : MonitorKey) : Option MonitorKey :=
  let survivors := s.monitorOrder.filter (· != «from»)
  (survivors.find? fun key => !ctx.locked key).or survivors.head?

def moveClientsToFirstMonitor (s : WMState) («from» : MonitorKey) : WMState :=
  let target := migrationTarget ctx s «from»
  let (s, reassigned) := transferOrOrphanMonitorClients s «from» target (ctx.retired «from») (ctx.parked s)
  match target with
  | none => s
  | some _ => reassigned.foldl (migrateClient ctx) s

def retireMonitor (s : WMState) (monitor : MonitorKey) : WMState :=
  removeMonitorState (moveClientsToFirstMonitor ctx s monitor) monitor

/-- `handle_output_removed`, the state it leaves before focus and arrangement are brought up to date. -/
def handleOutputRemoved (s : WMState) (id : OutputId) : WMState :=
  match s.outputMap.entries.find? (·.2 == id) with
  | none => s
  | some (monitor, _) => retireMonitor ctx s monitor

/-- The loop of `remove_excess_monitors`; each round takes a monitor off the order, so the number of
monitors is fuel enough. -/
def removeExcessLoop (ctx : HotplugContext) (targetCount : Nat) : Nat → WMState → WMState
  | 0, s => s
  | fuel + 1, s =>
    if s.monitorOrder.length ≤ targetCount then s
    else
      match s.monitorOrder.getLast? with
      | none => s
      | some monitor =>
        removeExcessLoop ctx targetCount fuel
          (retireMonitor ctx { s with monitorOrder := s.monitorOrder.dropLast } monitor)

def removeExcessMonitors (s : WMState) (targetCount : Nat) : WMState :=
  removeExcessLoop ctx targetCount s.monitorOrder.length s

end Jwm
