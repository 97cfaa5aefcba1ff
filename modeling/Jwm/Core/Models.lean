/-
The window manager's state (`core/models.rs`, `core/state.rs`): clients and monitors under slot-map
keys, each monitor's client list (tiled windows first, floating ones last) and focus stack.
-/
import Jwm.Core.Types
import Jwm.Data.KeyMap

namespace Jwm

/-! ## Clients -/

/-- `core::models::SizeHints`. -/
structure SizeHints where
  baseW : Int := 0
  baseH : Int := 0
  incW : Int := 0
  incH : Int := 0
  maxW : Int := 0
  maxH : Int := 0
  minW : Int := 0
  minH : Int := 0
  minAspect : Float32 := 0
  maxAspect : Float32 := 0
  /-- The cached hints answer for the window's property. -/
  hintsValid : Bool := false
deriving DecidableEq

/-- The rectangles of a client and its borders. -/
structure ClientGeometry where
  /-- `Some` exactly while a maximize axis is set. -/
  maximizeRestoreRect : Option Rect := none
  /-- `floating_x`, `floating_y`, `floating_w`, `floating_h`. -/
  floatingRect : Rect := ⟨0, 0, 0, 0⟩
  /-- `x`, `y`, `w`, `h`: where the window is now. -/
  rect : Rect := ⟨0, 0, 0, 0⟩
  /-- `old_x`, `old_y`, `old_w`, `old_h`: what the last resize replaced; fullscreen returns to it. -/
  oldRect : Rect := ⟨0, 0, 0, 0⟩
  borderW : Int := 0
  oldBorderW : Int := 0
  hiddenX : Option Int := none
  /-- Where a parked window goes when it is shown again. -/
  hiddenRestoreRect : Option Rect := none
deriving DecidableEq

structure ClientState where
  isFloating : Bool := false
  /-- Floats only because the user dragged it out of the tiles. -/
  isDragFloating : Bool := false
  oldState : Bool := false
  isFullscreen : Bool := false
  isPip : Bool := false
  isMaximizedVert : Bool := false
  isMaximizedHorz : Bool := false
  /-- Maximize pulled this client out of the layout. -/
  maximizeRestoreTiled : Bool := false
  /-- The client this one preceded in the tiled order when maximize promoted it. -/
  maximizeRestoreAnchor : Option ClientKey := none
  tags : BitVec 32 := 0
  isSticky : Bool := false
  /-- Minimized. -/
  isHidden : Bool := false
  isSwallowed : Bool := false
  isDock : Bool := false
  isDesktop : Bool := false
  /-- The client's share of the layout. -/
  clientFact : Float32 := 1.0
  /-- The sticky flag PiP borrowed. -/
  pipRestoreSticky : Bool := false
  noDecorations : Bool := false
  isFixed : Bool := false
  /-- Place in the dock of minimized windows; 0 for none. -/
  minimizedOrder : Nat := 0
  skipTaskbar : Bool := false
deriving DecidableEq

namespace ClientState

def maximizedAxes (c : ClientState) : MaximizeAxes := ⟨c.isMaximizedVert, c.isMaximizedHorz⟩

def setMaximizedAxes (c : ClientState) (axes : MaximizeAxes) : ClientState :=
  { c with isMaximizedVert := axes.vert, isMaximizedHorz := axes.horz }

/-- Maximize pulled the client out of the layout and it is still out. -/
def promoted (c : ClientState) : Bool := c.maximizeRestoreTiled && c.isFloating

end ClientState

structure WMClient where
  geometry : ClientGeometry := {}
  state : ClientState := {}
  mon : Option MonitorKey := none
  name : String := ""
  «class» : String := ""
  «instance» : String := ""
  sizeHints : SizeHints := {}
deriving DecidableEq

/-! ## Layouts -/

/-- `core::layout::LayoutEnum`: the names the window manager lays out by. -/
inductive LayoutEnum where
  | tile | float | monocle | fibonacci | centeredMaster | bstack | grid | deck | threeCol | tatami
  | fullscreen | scrolling | vstack | any
deriving DecidableEq

/-- `LayoutEnum.0`. -/
def LayoutEnum.name : LayoutEnum → String
  | tile => "tile"
  | float => "float"
  | monocle => "monocle"
  | fibonacci => "fibonacci"
  | centeredMaster => "centeredmaster"
  | bstack => "bstack"
  | grid => "grid"
  | deck => "deck"
  | threeCol => "threecol"
  | tatami => "tatami"
  | fullscreen => "fullscreen"
  | scrolling => "scrolling"
  | vstack => "vstack"
  | any => ""

/-- `LayoutEnum::is_float`. -/
def LayoutEnum.isFloat (l : LayoutEnum) : Bool := l == .float

/-- The symbol of the layout's row in the protocol catalog; `ANY` has none. -/
def LayoutEnum.symbol : LayoutEnum → String
  | tile => "[]="
  | float => "><>"
  | monocle => "[M]"
  | fibonacci => "[@]"
  | centeredMaster => "|M|"
  | bstack => "TTT"
  | grid => "HHH"
  | deck => "[D]"
  | threeCol => "|||"
  | tatami => "[+]"
  | fullscreen => "[ ]"
  | scrolling => "[S]"
  | vstack => "V[]"
  | any => ""

/-! ## Monitors -/

structure MonitorLayout where
  mFact : Float32
  nMaster : Nat
  gap : Int

/-- The configured defaults a monitor's tags were seeded from. -/
structure LayoutDefaults where
  mFact : Float32
  nMaster : Nat
  gap : Int

structure MonitorGeometry where
  mX : Int
  mY : Int
  mW : Int
  mH : Int
  wX : Int
  wY : Int
  wW : Int
  wH : Int
deriving DecidableEq

/-- Layout parameters kept per tag: slot 0 is "view all", slots `1 ..` the numbered tags. -/
structure Pertag where
  curTag : Nat
  prevTag : Nat
  nMasters : List Nat
  mFacts : List Float32
  gaps : List Int
  lts : List LayoutEnum
  prevLts : List LayoutEnum
  showBars : List Bool
  sel : List (Option ClientKey)

/-- `core::master_resize::ResizeIntent`. -/
structure ResizeIntent (K : Type) where
  client : K
  width : Float
  height : Float

structure ResizeFrame (K : Type) where
  client : K
  rect : Rect
  border : Int
deriving DecidableEq

structure ResizeContext (K : Type) where
  topology : List K
  groups : List (List K)
  intent : Option (ResizeIntent K)
  area : Rect
  gap : Int
  frames : List (ResizeFrame K)
  dragSnapshot : Option (Option (ResizeIntent K))
  preparing : Bool

instance tagSetSlots : NeZero 2 := ⟨Nat.succ_ne_zero 1⟩

/-- `core::models::WMMonitor`. `sel_tags` only ever names one of the two tag sets. -/
structure WMMonitor where
  num : Int
  ltSymbol : String
  layout : MonitorLayout
  layoutDefaults : LayoutDefaults
  geometry : MonitorGeometry
  selTags : Fin 2
  tagSet : Fin 2 → BitVec 32
  sel : Option ClientKey
  lt : LayoutEnum
  prevLt : LayoutEnum
  pertag : Option Pertag
  layoutResizes : KeyMap (BitVec 32 × LayoutEnum) (ResizeContext ClientKey)

/-! ## The whole state -/

/-- `core::state::WMState`, without the caches no modelled operation reads. -/
structure WMState where
  clients : KeyMap ClientKey WMClient
  monitors : KeyMap MonitorKey WMMonitor
  monitorClients : KeyMap MonitorKey (List ClientKey)
  monitorStack : KeyMap MonitorKey (List ClientKey)
  clientOrder : List ClientKey := []
  monitorOrder : List MonitorKey := []
  outputMap : KeyMap MonitorKey OutputId := .empty
  selMon : Option MonitorKey := none
  motionMon : Option MonitorKey := none

namespace WMState

def modifyClient (s : WMState) (key : ClientKey) (f : WMClient → WMClient) : WMState :=
  { s with clients := s.clients.modify key f }

def setList (s : WMState) (mon : MonitorKey) (list : List ClientKey) : WMState :=
  { s with monitorClients := s.monitorClients.modify mon fun _ => list }

/-- A client's floating flag; an unknown key does not float. -/
def isClientFloating (s : WMState) (key : ClientKey) : Bool :=
  (s.clients.get? key).any (·.state.isFloating)

def monOf (s : WMState) (key : ClientKey) : Option MonitorKey :=
  (s.clients.get? key).bind (·.mon)

@[simp] theorem modifyClient_monitorClients (s : WMState) (key : ClientKey) (f : WMClient → WMClient) :
    (s.modifyClient key f).monitorClients = s.monitorClients := rfl

@[simp] theorem setList_clients (s : WMState) (mon : MonitorKey) (list : List ClientKey) :
    (s.setList mon list).clients = s.clients := rfl

theorem modifyClient_get? (s : WMState) (key key' : ClientKey) (f : WMClient → WMClient) :
    (s.modifyClient key f).clients.get? key' =
      if key' = key then (s.clients.get? key').map f else s.clients.get? key' :=
  KeyMap.get?_modify s.clients key key' f

theorem modifyClient_get?_of {s : WMState} {key : ClientKey} {c : WMClient} (h : s.clients.get? key = some c)
    (f : WMClient → WMClient) (key' : ClientKey) :
    (s.modifyClient key f).clients.get? key' = if key' = key then some (f c) else s.clients.get? key' := by
  rw [modifyClient_get?]
  split
  · rename_i heq
    rw [heq, h]
    rfl
  · rfl

theorem setList_get? (s : WMState) (mon mon' : MonitorKey) (list : List ClientKey) :
    (s.setList mon list).monitorClients.get? mon' =
      if mon' = mon then (s.monitorClients.get? mon').map fun _ => list else s.monitorClients.get? mon' :=
  KeyMap.get?_modify s.monitorClients mon mon' _

end WMState

end Jwm
