/-
The snapshot handed over at an X11 restart (`jwm/restart_state.rs`): what is accepted as one, its encoding under the limit of a window
property, and the optional layout shapes that are put into the room left. The JSON writer and reader are a parameter.
-/
import Jwm.Core.LayoutParams
import Jwm.Ipc.IpcServer

namespace Jwm

/-! ## Layout names -/

namespace LayoutEnum

def all : List LayoutEnum :=
  [tile, fibonacci, centeredMaster, bstack, grid, deck, threeCol, tatami, monocle, fullscreen, scrolling, vstack, float]

def fromName (name : String) : Option LayoutEnum :=
  let name := (Ipc.trim name).map Char.toLower
  all.find? fun layout => layout.name == name

end LayoutEnum

namespace Restart

/-! ## The record -/

def version : Nat := 1
def maxMonitors : Nat := 64
def maxClients : Nat := 4096
def maxShapeContexts : Nat := 4096
def maxRestartPropertyBytes : Nat := 64 * 1024

structure RestartIntent where
  version : Nat
  pid : Nat
  capturedMs : Nat
  generation : String
deriving DecidableEq

structure Output where
  stableKey : String
  connector : String
  rect : Rect

structure Tag where
  layout : String
  alt : String
  nMaster : Nat
  mFact : Float32
  gap : Int
  showBar : Bool

structure ResizeAnchor where
  xid : Nat
  width : Float
  height : Float
deriving DecidableEq

structure ScrollingColumn where
  clients : List Nat
  widthFactor : Float32
  focused : Option Nat
deriving DecidableEq

structure ScrollingShape where
  columns : List ScrollingColumn
  focusedColumn : Option Nat
  attachNew : Bool
deriving DecidableEq

/-- A scrolling grouping and its resize anchor share one optional eviction unit. -/
structure ShapeContext where
  tagMask : Nat
  layout : String
  resize : Option ResizeAnchor
  scrolling : Option ScrollingShape
deriving DecidableEq

structure Monitor where
  output : Output
  tagSet : Nat × Nat
  selTags : Nat
  curTag : Nat
  prevTag : Nat
  tags : List Tag
  order : List Nat
  selected : Option Nat
  mru : List Nat := []
  tagSelected : List (Option Nat) := []
  shapes : List ShapeContext := []

structure Client where
  xid : Nat
  tags : Nat
  monitor : Nat
  clientFact : Float32 := 1.0
  maximizeAnchor : Option Nat := none

structure Snapshot where
  intent : RestartIntent
  monitors : List Monitor
  clients : List Client
  selectedMonitor : Option Nat

/-! ## Validation -/

/-- `(low..=high).contains`, of a finite number. -/
def finiteWithin (low high f : Float32) : Bool := f.isFinite && decide (low ≤ f) && decide (f ≤ high)

/-- Wire scopes are exact, where `from_name` accepts other spellings. -/
def canonicalShapeLayout (name : String) : Option LayoutEnum :=
  (LayoutEnum.fromName name).filter fun layout => layout.name == name && !layout.isFloat

def ResizeAnchor.validate (anchor : ResizeAnchor) (monitorIds : List Nat) : Bool :=
  monitorIds.contains anchor.xid && anchor.width.isFinite && decide (0 ≤ anchor.width ∧ anchor.width ≤ 1) &&
    anchor.height.isFinite && decide (0 ≤ anchor.height ∧ anchor.height ≤ 1)

def ScrollingColumn.validate (column : ScrollingColumn) (monitorIds : List Nat) : Bool :=
  !column.clients.isEmpty && finiteWithin 0.25 2.5 column.widthFactor && column.clients.all monitorIds.contains &&
    column.focused.all column.clients.contains

def ScrollingShape.validate (scrolling : ScrollingShape) (monitorIds : List Nat) : Bool :=
  decide (scrolling.columns.length ≤ maxClients) && scrolling.focusedColumn.all (· < scrolling.columns.length) &&
    scrolling.columns.all (·.validate monitorIds) && decide (scrolling.columns.flatMap (·.clients)).Nodup

def ShapeContext.validate (shape : ShapeContext) (monitorIds : List Nat) : Bool :=
  shape.tagMask != 0 && (canonicalShapeLayout shape.layout).isSome && (shape.resize.isSome || shape.scrolling.isSome) &&
    shape.resize.all (·.validate monitorIds) &&
    shape.scrolling.all fun scrolling => shape.layout == LayoutEnum.scrolling.name && scrolling.validate monitorIds

def Tag.validate (tag : Tag) : Bool :=
  (LayoutEnum.fromName tag.layout).isSome && (LayoutEnum.fromName tag.alt).isSome && decide (tag.nMaster ≤ maxNMaster) &&
    finiteWithin 0.05 0.95 tag.mFact && decide (0 ≤ tag.gap ∧ tag.gap ≤ 100)

namespace Snapshot

variable (s : Snapshot)

def idsOn (index : Nat) : List Nat := (s.clients.filter (·.monitor == index)).map (·.xid)

def validateClient (client : Client) : Bool :=
  client.xid != 0 && finiteWithin 0.25 4.0 client.clientFact && client.tags != 0 && decide (client.monitor < s.monitors.length) &&
    client.maximizeAnchor.all fun anchor =>
      anchor != client.xid && s.clients.any fun other => other.xid == anchor && other.monitor == client.monitor

def validateMonitor (index : Nat) (monitor : Monitor) : Bool :=
  decide (monitor.output.stableKey.utf8ByteSize ≤ 1024) && decide (monitor.output.connector.utf8ByteSize ≤ 1024) &&
    decide (0 < monitor.output.rect.w) && decide (0 < monitor.output.rect.h) && decide (monitor.selTags < 2) &&
    monitor.tagSet.1 != 0 && monitor.tagSet.2 != 0 && decide (2 ≤ monitor.tags.length ∧ monitor.tags.length ≤ 33) &&
    decide (monitor.curTag < monitor.tags.length) && decide (monitor.prevTag < monitor.tags.length) &&
    decide (monitor.order.length ≤ maxClients) && monitor.order.all (s.idsOn index).contains && decide monitor.order.Nodup &&
    (s.idsOn index).all monitor.order.contains && monitor.selected.all monitor.order.contains &&
    decide (monitor.mru.length ≤ maxClients) && monitor.mru.all (s.idsOn index).contains && decide monitor.mru.Nodup &&
    (monitor.tagSelected.isEmpty || monitor.tagSelected.length == monitor.tags.length) &&
    monitor.tagSelected.all (fun id => id.all (s.idsOn index).contains) && monitor.tags.all Tag.validate

def validateShapes (index : Nat) (shapes : List ShapeContext) : Bool :=
  decide (shapes.map fun shape => (shape.tagMask, shape.layout)).Nodup && shapes.all (·.validate (s.idsOn index))

def validate : Bool :=
  s.intent.version == version && decide (s.monitors.length ≤ maxMonitors) && decide (s.clients.length ≤ maxClients) &&
    decide ((s.monitors.map (·.shapes.length)).sum ≤ maxShapeContexts) && s.selectedMonitor.all (· < s.monitors.length) &&
    decide (s.clients.map (·.xid)).Nodup && s.clients.all s.validateClient &&
    (s.monitors.mapIdx fun index monitor => s.validateMonitor index monitor && s.validateShapes index monitor.shapes).all id

end Snapshot

/-! ## Encoding -/

/-- `serde_json` on the records above. Its default reader of fractions is best effort: which of them it reads back is its own. -/
structure SerdeJson where
  toVec : Snapshot → List Byte
  shapeToVec : ShapeContext → List Byte
  fromSlice : List Byte → Option Snapshot
  Keeps32 : Float32 → Prop
  Keeps64 : Float → Prop

namespace Snapshot

variable (json : SerdeJson) (s : Snapshot)

def encode : Except String (List Byte) :=
  if !s.validate then .error "invalid X11 restart snapshot"
  else
    let bytes := json.toVec s
    if maxRestartPropertyBytes < bytes.length then .error "X11 restart snapshot exceeds property limit"
    else .ok bytes

def decode (bytes : List Byte) (intent : RestartIntent) : Option Snapshot :=
  if maxRestartPropertyBytes < bytes.length then none
  else (json.fromSlice bytes).filter fun snapshot => snapshot.intent == intent && snapshot.validate

def pushShape (index : Nat) (shape : ShapeContext) : Snapshot :=
  { s with monitors := s.monitors.modify index fun monitor => { monitor with shapes := monitor.shapes ++ [shape] } }

def popShape (index : Nat) : Snapshot :=
  { s with monitors := s.monitors.modify index fun monitor => { monitor with shapes := monitor.shapes.dropLast } }

end Snapshot

abbrev Candidate := Nat × ShapeContext

/-- The locals of `encode_with_shapes`; `retained` holds index and cost, the last one first. -/
structure Packing where
  snapshot : Snapshot
  size : Nat
  scopes : List (Nat × Nat × String) := []
  retained : List (Nat × Nat) := []

/-- The base omits an empty shapes field. Later entries add a comma. -/
def separatorCost (monitor : Option Monitor) : Nat :=
  if monitor.all (·.shapes.isEmpty) then ",\"shapes\":[]".utf8ByteSize else 1

def Packing.addCandidate (json : SerdeJson) (monitorIds : List (List Nat)) (p : Packing) (candidate : Candidate) : Packing :=
  let index := candidate.1
  let shape := candidate.2
  let scope := (index, shape.tagMask, shape.layout)
  if !(monitorIds[index]?.any shape.validate) || p.scopes.contains scope then p
  else if p.retained.length = maxShapeContexts then { p with scopes := scope :: p.scopes }
  else
    let cost := (json.shapeToVec shape).length + separatorCost p.snapshot.monitors[index]?
    { snapshot := p.snapshot.pushShape index shape
      size := p.size + cost
      scopes := scope :: p.scopes
      retained := (index, cost) :: p.retained }

def evict (snapshot : Snapshot) (size : Nat) : List (Nat × Nat) → Except String (Snapshot × Nat × List (Nat × Nat))
  | [] => if maxRestartPropertyBytes < size then .error "base encoding already fits" else .ok (snapshot, size, [])
  | (index, cost) :: retained =>
    if maxRestartPropertyBytes < size then evict (snapshot.popShape index) (size - cost) retained
    else .ok (snapshot, size, (index, cost) :: retained)

namespace Snapshot

variable (json : SerdeJson) (s : Snapshot)

/-- Both loops: the snapshot, the running size and what is retained. -/
def packShapes (baseSize : Nat) (candidates : List Candidate) : Except String (Snapshot × Nat × List (Nat × Nat)) :=
  let monitorIds := (List.range s.monitors.length).map s.idsOn
  let p := candidates.foldl (Packing.addCandidate json monitorIds) { snapshot := s, size := baseSize }
  evict p.snapshot p.size p.retained

def encodeWithShapes (candidates : List Candidate) : Except String (List Byte) × Snapshot :=
  match s.encode json with
  | .error e => (.error e, s)
  | .ok base =>
    match s.packShapes json base.length candidates with
    | .error e => (.error e, s)
    | .ok (snapshot, _, retained) =>
      if retained.isEmpty then (.ok base, snapshot) else (snapshot.encode json, snapshot)

end Snapshot

end Restart

end Jwm
