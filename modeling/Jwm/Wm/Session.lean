/-
Saved sessions (`jwm/session.rs`): what a snapshot records about placement, and the steps of
`apply_session_snapshot` that put windows back: which window takes which entry, its monitor, tags,
share and floating flag, and at last the order of every monitor's list.
-/
import Jwm.Data.Matching
import Jwm.Wm.Sendmon

namespace Jwm

/-! ## Snapshots -/

/-- `str::eq_ignore_ascii_case`. -/
def eqIgnoreAsciiCase (a b : String) : Bool := a.toList.map Char.toLower == b.toList.map Char.toLower

structure SessionWindowIdentity where
  «class» : String
  «instance» : String
deriving DecidableEq

def SessionWindowIdentity.matches (i other : SessionWindowIdentity) : Bool :=
  eqIgnoreAsciiCase i.class other.class && eqIgnoreAsciiCase i.instance other.instance

structure SessionEntry where
  «class» : String
  «instance» : String
  tags : BitVec 32
  isFloating : Bool
  monitorNum : Nat
  connector : Option String
  clientFact : Float32
  isDragFloating : Bool

structure SessionMonitorOrder where
  monitorNum : Nat
  connector : Option String
  clients : List SessionWindowIdentity

structure SessionSnapshot where
  clients : List SessionEntry
  monitorOrders : List SessionMonitorOrder

/-! ## Capture -/

namespace WMClient

def identity (c : WMClient) : SessionWindowIdentity := ⟨c.class, c.instance⟩

def isStatusBar (c : WMClient) (statusBarName : String) : Bool :=
  statusBarName != "" && (c.name == statusBarName || c.class == statusBarName || c.instance == statusBarName)

/-- Whether the client floats once it is no longer maximized. -/
def restsFloating (c : WMClient) : Bool :=
  if c.state.maximizedAxes.any then !c.state.maximizeRestoreTiled else c.state.isFloating

end WMClient

/-- `u32::try_from` of an `i32`. -/
def u32TryFrom (n : Int) : Option Nat := if 0 ≤ n then some n.toNat else none

/-- `skipped`: docks, the status bar, what is on no tag, and what is excluded. -/
def sessionSkips (statusBarName : String) (excluded : List ClientKey) (key : ClientKey) (c : WMClient) : Bool :=
  c.state.isDock || c.isStatusBar statusBarName || c.state.tags == 0 || excluded.contains key

def sessionEntry (s : WMState) (c : WMClient) : SessionEntry where
  «class» := c.class
  «instance» := c.instance
  tags := c.state.tags
  isFloating := c.restsFloating
  monitorNum := ((c.mon.bind s.monitors.get?).bind fun monitor => u32TryFrom monitor.num).getD 0
  connector := none
  clientFact := c.state.clientFact
  isDragFloating := c.restsFloating && c.state.isDragFloating

def captureSnapshotExcluding (s : WMState) (statusBarName : String) (excluded : List ClientKey) : SessionSnapshot :=
  let recorded (key : ClientKey) : Option WMClient :=
    (s.clients.get? key).filter fun c => !sessionSkips statusBarName excluded key c
  { clients := s.clientOrder.filterMap fun key => (recorded key).map (sessionEntry s)
    monitorOrders := s.monitorOrder.filterMap fun monitor =>
      (s.monitors.get? monitor).bind fun m => (u32TryFrom m.num).map fun num =>
        { monitorNum := num
          connector := none
          clients := ((s.monitorClients.get? monitor).map fun keys =>
            (restingOrder s keys).filterMap fun key => (recorded key).map (·.identity)).getD [] } }

/-! ## Planning -/

/-- The first entry that is free and names class and instance; without an instance on either side the
class will do. -/
def claimEntry (slots : List (Bool × SessionEntry)) («class» «instance» : String) :
    Option (SessionEntry × List (Bool × SessionEntry)) :=
  let candidate (e : SessionEntry) : Bool := e.tags != 0 && eqIgnoreAsciiCase e.class «class»
  let bothHaveInstance (e : SessionEntry) : Bool := e.instance != "" && «instance» != ""
  (claimFirst (fun e => candidate e && bothHaveInstance e && eqIgnoreAsciiCase e.instance «instance») slots).or
    (claimFirst (fun e => candidate e && !bothHaveInstance e) slots)

/-- The loop of `plan_restore_detailed`; a plan is what the entry says. -/
def planRestoreLoop : List (Bool × SessionEntry) → List (ClientKey × String × String) → List (ClientKey × SessionEntry)
  | _, [] => []
  | slots, (key, «class», «instance») :: clients =>
    match claimEntry slots «class» «instance» with
    | none => planRestoreLoop slots clients
    | some (e, slots) => (key, e) :: planRestoreLoop slots clients

def planRestoreDetailed (snapshot : SessionSnapshot) (clients : List (ClientKey × String × String)) :
    List (ClientKey × SessionEntry) :=
  planRestoreLoop (snapshot.clients.map fun e => (false, e)) clients

/-- Saved identities claim the windows in turn; windows nobody claimed follow. -/
def planOrderRestore (saved : List SessionWindowIdentity) (current : List (ClientKey × SessionWindowIdentity)) :
    List ClientKey :=
  let (pairs, slots) := claimAll (fun identity entry => SessionWindowIdentity.matches entry.2 identity) saved
    (current.map fun entry => (false, entry))
  pairs.map (·.2.1) ++ (unclaimed slots).map (·.1)

/-! ## Restore -/

/-- What the window manager and the backend contribute to a restore. -/
structure SessionEnv where
  tagmask : BitVec 32
  scratchpads : List ClientKey
  /-- `live_monitor_identities`: number, connector and stable key. -/
  live : List (Int × String × String)
  locked : ClientKey → MonitorKey → Bool
  place : ClientKey → ClientGeometry → ClientGeometry
  focus : ClientKey → FocusOutcome

def resolveMonitorNumByConnector (remembered : Int) (connector : Option String) (live : List (Int × String × String)) :
    Int :=
  match connector with
  | none => remembered
  | some key => ((live.find? fun (_, connector, stableKey) => connector == key || stableKey == key).map (·.1)).getD
      remembered

def resolveSessionMonitorNum (env : SessionEnv) (remembered : Nat) (connector : Option String) : Nat :=
  let rememberedI32 : Int := if remembered < 2 ^ 31 then remembered else 0
  (u32TryFrom (resolveMonitorNumByConnector rememberedI32 connector env.live)).getD remembered

def sessionMonitor (env : SessionEnv) (s : WMState) (num : Nat) (connector : Option String) : Option MonitorKey :=
  s.monitorOrder.find? fun monitor => (s.monitors.get? monitor).any fun m =>
    u32TryFrom m.num == some (resolveSessionMonitorNum env num connector)

def moveToSavedMonitor (env : SessionEnv) (s : WMState) (plan : ClientKey × SessionEntry) : WMState :=
  match sessionMonitor env s plan.2.monitorNum plan.2.connector with
  | none => s
  | some target =>
    if s.monOf plan.1 = some target then s
    else sendmon (env.locked plan.1) (env.place plan.1) (env.focus plan.1) s plan.1 target

def sanitizeTags (saved tagmask fallback : BitVec 32) : BitVec 32 :=
  if saved &&& tagmask ≠ 0 then saved &&& tagmask
  else if fallback &&& tagmask ≠ 0 then fallback &&& tagmask else tagmask &&& 1

def sanitizeClientFact (fact : Float32) : Float32 :=
  if !fact.isFinite then 1.0 else if fact < 0.25 then 0.25 else if fact > 4.0 then 4.0 else fact

/-- Tags, share and floating flag of one client, then its place in its group. -/
def placeClient (env : SessionEnv) (s : WMState) (plan : ClientKey × SessionEntry) : WMState :=
  let (key, e) := plan
  let fallback := ((((s.monOf key).bind s.monitors.get?).map (·.activeTags &&& env.tagmask)).filter (· ≠ 0)).getD 1
  let s := s.modifyClient key fun c =>
    { c with state := { c.state with
      tags := sanitizeTags e.tags env.tagmask fallback
      isFloating := e.isFloating
      isDragFloating := e.isFloating && e.isDragFloating
      clientFact := sanitizeClientFact e.clientFact } }
  reorderClientInMonitorGroups s key

/-- One round of `restore_monitor_client_order`. -/
def restoreMonitorOrder (env : SessionEnv) (s : WMState) (saved : SessionMonitorOrder) : WMState :=
  match sessionMonitor env s saved.monitorNum saved.connector with
  | none => s
  | some monitor =>
    match s.monitorClients.get? monitor with
    | none => s
    | some keys =>
      let current := keys.filterMap fun key => (s.clients.get? key).map fun c => (key, c.identity)
      -- a list that names unknown clients is left alone
      if current.length ≠ keys.length then s
      else
        let (heldBack, current) := current.partition fun entry => env.scratchpads.contains entry.1
        let planned := planOrderRestore saved.clients current ++ heldBack.map (·.1)
        s.setList monitor (planned.filter (!s.isClientFloating ·) ++ planned.filter s.isClientFloating)

def restoreMonitorClientOrder (env : SessionEnv) (s : WMState) (snapshot : SessionSnapshot) : WMState :=
  snapshot.monitorOrders.foldl (restoreMonitorOrder env) s

/-- The placement of `apply_session_snapshot`, for windows in no mode. -/
def applySessionSnapshot (env : SessionEnv) (s : WMState) (snapshot : SessionSnapshot) : WMState :=
  let current := (s.clientOrder.filter fun key => !env.scratchpads.contains key).filterMap fun key =>
    (s.clients.get? key).map fun c => (key, c.class, c.instance)
  let plans := planRestoreDetailed snapshot current
  let s := plans.foldl (moveToSavedMonitor env) s
  let s := plans.foldl (placeClient env) s
  restoreMonitorClientOrder env s snapshot

end Jwm
