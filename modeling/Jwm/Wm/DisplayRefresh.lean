/-
`updategeom` (`jwm/monitor.rs`): the monitors follow an enumeration of the outputs. Rectangles are
handed out by position, monitors are created or dropped at the tail, and a monitor whose rectangle
changes takes its position as its number.
-/
import Jwm.Wm.Outputs

namespace Jwm

/-! ## Which output goes where -/

/-- The first loop of `plan_monitor_output_indices`: each position claims the output it is mapped to.
With the claimed indices. -/
def claimOutputs (outputs : List (OutputId × Rect)) : List (Option OutputId) → List Nat → List (Option Nat) × List Nat
  | [], claimed => ([], claimed)
  | mapped :: rest, claimed =>
    let found := (mapped.bind fun id => outputs.findIdx? (·.1 == id)).filter fun index => index ∉ claimed
    let (slots, claimed) := claimOutputs outputs rest (found.toList ++ claimed)
    (found :: slots, claimed)

/-- Every other position takes the next output nobody claimed. -/
def fillSlots : List (Option Nat) → List Nat → List Nat
  | [], _ => []
  | some index :: slots, unclaimed => index :: fillSlots slots unclaimed
  | none :: slots, index :: unclaimed => index :: fillSlots slots unclaimed
  | none :: slots, [] => fillSlots slots []

def planMonitorOutputIndices (monitorOutputs : List (Option OutputId)) (outputs : List (OutputId × Rect)) : List Nat :=
  let survivors := min monitorOutputs.length outputs.length
  let (slots, claimed) := claimOutputs outputs (monitorOutputs.take survivors) []
  fillSlots (slots ++ List.replicate (outputs.length - survivors) none)
    ((List.range outputs.length).filter fun index => index ∉ claimed)

/-- A monitor, its rectangle, and the output it stands for. -/
structure OutputSlot where
  monitor : MonitorKey
  rect : Rect
  current : Option OutputId
  assigned : Option OutputId

/-- The first pass of `plan_output_map`: a monitor keeps an output that still has its rectangle. -/
def keepOutputs (outputs : List (OutputId × Rect)) : List OutputSlot → List OutputId → List OutputSlot × List OutputId
  | [], claimed => ([], claimed)
  | slot :: slots, claimed =>
    let kept := slot.current.filter fun id => outputs.any (fun o => o.1 == id && o.2 == slot.rect) && id ∉ claimed
    let (slots, claimed) := keepOutputs outputs slots (kept.toList ++ claimed)
    ({ slot with assigned := kept } :: slots, claimed)

/-- The second: one with its rectangle, that at its own position first. -/
def fitOutputs (outputs : List (OutputId × Rect)) :
    Nat → List OutputSlot → List OutputId → List OutputSlot × List OutputId
  | _, [], claimed => ([], claimed)
  | index, slot :: slots, claimed =>
    let fits (o : OutputId × Rect) : Bool := o.2 == slot.rect && o.1 ∉ claimed
    let matched := if slot.assigned.isSome then none
      else (((outputs[index]?).filter fits).or (outputs.find? fits)).map (·.1)
    let (slots, claimed) := fitOutputs outputs (index + 1) slots (matched.toList ++ claimed)
    ({ slot with assigned := slot.assigned.or matched } :: slots, claimed)

def positionOutputs (outputs : List (OutputId × Rect)) :
    Nat → List OutputSlot → List OutputId → List OutputSlot × List OutputId
  | _, [], claimed => ([], claimed)
  | index, slot :: slots, claimed =>
    let matched := if slot.assigned.isSome then none else ((outputs[index]?).map (·.1)).filter fun id => id ∉ claimed
    let (slots, claimed) := positionOutputs outputs (index + 1) slots (matched.toList ++ claimed)
    ({ slot with assigned := slot.assigned.or matched } :: slots, claimed)

def planOutputMap (monitors : List OutputSlot) (outputs : List (OutputId × Rect)) : List (MonitorKey × OutputId) :=
  let (slots, claimed) := keepOutputs outputs monitors []
  let (slots, claimed) := fitOutputs outputs 0 slots claimed
  let (slots, _) := positionOutputs outputs 0 slots claimed
  slots.filterMap fun slot => slot.assigned.map fun id => (slot.monitor, id)

def reconcileOutputMap (s : WMState) (outputs : List OutputInfo) : WMState :=
  if outputs.isEmpty then s
  else
    let monitors := s.monitorOrder.filterMap fun key => (s.monitors.get? key).map fun m =>
      { monitor := key, rect := m.rect, current := s.outputMap.get? key, assigned := none }
    let planned := planOutputMap monitors (outputs.map fun o => (o.id, o.rect))
    { s with outputMap := (KeyMap.empty : KeyMap MonitorKey OutputId).extend planned }

/-! ## The refresh -/

def placeClients (ctx : HotplugContext) (s : WMState) (keys : List ClientKey) : WMState :=
  keys.foldl (fun s key => s.modifyClient key fun client => { client with geometry := ctx.place key client.geometry }) s

/-- The monitor at `position` covers `target`. A changed one takes `num`. With the dirty flag. -/
def refreshMonitor (ctx : HotplugContext) (s : WMState) (position : Nat) (num : Int) (target : Rect) : WMState × Bool :=
  match s.monitorOrder[position]? with
  | none => (s, false)
  | some key =>
    match s.monitors.get? key with
    | none => (s, false)
    | some m =>
      if m.rect = target then (s, false)
      else
        let owned := clientsOwnedByMonitor s key
        let s := { s with monitors := s.monitors.modify key fun m => WMMonitor.setRect { m with num := num } target }
        (placeClients ctx s owned, true)

/-- `setup_single_monitor`; `key` is the one the slot map hands out next. -/
def setupSingleMonitor (cfg : MonitorConfig) (ctx : HotplugContext) (s : WMState) (key : MonitorKey) (target : Rect)
    (connector : Option String) : WMState × Bool :=
  let (s, created) :=
    if s.monitorOrder.isEmpty then ({ insertSeededMonitor cfg s key connector with selMon := some key }, true)
    else (s, false)
  let (s, changed) := refreshMonitor ctx s 0 0 target
  if s.monitorOrder.length > 1 then (removeExcessMonitors ctx s 1, true) else (s, created || changed)

/-- The monitors `setup_multiple_monitors` creates, one for each remaining connector. -/
def createMonitors (cfg : MonitorConfig) : WMState → List (MonitorKey × Option String) → WMState
  | s, [] => s
  | s, (key, connector) :: rest => createMonitors cfg (insertSeededMonitor cfg s key connector) rest

def refreshMonitors (ctx : HotplugContext) : Nat → WMState → List Rect → WMState × Bool
  | _, s, [] => (s, false)
  | position, s, target :: rest =>
    let (s, changed) := refreshMonitor ctx s position (asI32 position) target
    let (s, dirty) := refreshMonitors ctx (position + 1) s rest
    (s, changed || dirty)

/-- `setup_multiple_monitors`; `fresh` are the keys the slot map hands out, in turn. -/
def setupMultipleMonitors (cfg : MonitorConfig) (ctx : HotplugContext) (s : WMState) (fresh : Nat → MonitorKey)
    (planned : List OutputInfo) : WMState × Bool :=
  let current := s.monitorOrder.length
  let s := createMonitors cfg s
    ((planned.drop current).zipIdx.map fun (o, i) => (fresh i, o.seedKey))
  let (s, changed) := refreshMonitors ctx 0 s (planned.map (·.rect))
  if planned.length < current then (removeExcessMonitors ctx s planned.length, true)
  else (s, decide (current < planned.length) || changed)

/-- The enumeration names the outputs the monitors are mapped to, each once. -/
def sameOutputs (s : WMState) (outputs : List OutputInfo) : Bool :=
  let outputIds := outputs.map (·.id)
  let mappedIds := s.monitorOrder.filterMap s.outputMap.get?
  !outputs.isEmpty && outputs.length == s.monitorOrder.length && decide outputIds.Nodup &&
    mappedIds.all (· ∈ outputIds) && outputIds.all (· ∈ mappedIds)

/-- The outputs in the order their rectangles are handed out. -/
def plannedOutputs (wayland : Bool) (s : WMState) (outputs : List OutputInfo) : List OutputInfo :=
  if wayland || sameOutputs s outputs then
    (planMonitorOutputIndices (s.monitorOrder.map s.outputMap.get?) (outputs.map fun o => (o.id, o.rect))).filterMap
      (outputs[·]?)
  else outputs

/-- `updategeom`; `rootMon` is what `wintomon` finds for the root window and `screen` the size of the whole screen. -/
def updategeom (cfg : MonitorConfig) (wayland : Bool) (ctx : HotplugContext) (s : WMState) (fresh : Nat → MonitorKey)
    (screen : Rect) (rootMon : Option MonitorKey) (outputs : List OutputInfo) : WMState :=
  let same := sameOutputs s outputs
  let (s, dirty) :=
    if outputs.length ≤ 1 then
      setupSingleMonitor cfg ctx s (fresh 0) ((outputs.head?.map (·.rect)).getD screen) (outputs.head?.bind (·.seedKey))
    else setupMultipleMonitors cfg ctx s fresh (plannedOutputs wayland s outputs)
  let s := reconcileOutputMap s outputs
  if dirty && !(same && s.selMon.any s.monitors.contains) then
    { s with selMon := rootMon.or s.monitorOrder.head? }
  else s

end Jwm
