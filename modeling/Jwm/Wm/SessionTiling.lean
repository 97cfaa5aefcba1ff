/-
When a restored session has the saved tiling: which window takes which entry is decided by the client orders, where it stands
by the saved lists. Both match the windows of one application k-th to k-th, so the restored tiles are read off the captured
state and the two orders; they are the saved ones exactly where the two ways of counting agree.
-/
import Jwm.Wm.SessionPlacement

namespace Jwm

open List Option Function

/-! ## Reading a state -/

namespace WMState

def identityOf (s : WMState) (k : ClientKey) : SessionWindowIdentity :=
  ((s.clients.get? k).map (·.identity)).getD ⟨"", ""⟩

def tagsOf (s : WMState) (k : ClientKey) : BitVec 32 := ((s.clients.get? k).map (·.state.tags)).getD 0

def factOf (s : WMState) (k : ClientKey) : Float32 := ((s.clients.get? k).map (·.state.clientFact)).getD 1.0

def numOf (s : WMState) (m : MonitorKey) : Option Int := (s.monitors.get? m).map (·.num)

def tiledOn (s : WMState) (m : MonitorKey) : List ClientKey :=
  ((s.monitorClients.get? m).getD []).filter fun k => !s.isClientFloating k

/-- Class, instance and share of the tiled clients on a tag. -/
def tiling (s : WMState) (m : MonitorKey) (tag : Nat) : List (SessionWindowIdentity × Float32) :=
  ((s.tiledOn m).filter fun k => (s.tagsOf k).getLsbD tag).map fun k => (s.identityOf k, s.factOf k)

end WMState

def SessionWindowIdentity.folded (i : SessionWindowIdentity) : List Char × List Char :=
  (i.class.toList.map Char.toLower, i.instance.toList.map Char.toLower)

open SessionWindowIdentity

theorem SessionWindowIdentity.matches_eq (i j : SessionWindowIdentity) : i.matches j = decide (i.folded = j.folded) := by
  unfold SessionWindowIdentity.matches eqIgnoreAsciiCase folded
  rw [Bool.eq_iff_iff, Bool.and_eq_true, beq_iff_eq, beq_iff_eq, decide_eq_true_iff, Prod.mk.injEq]

/-! ## What a snapshot saves -/

/-- What capture leaves out. -/
structure Capture where
  statusBarName : String
  excluded : List ClientKey

section Captured

variable (cap : Capture) (s t : WMState)

def recorded (k : ClientKey) : Bool :=
  (s.clients.get? k).any fun c => !sessionSkips cap.statusBarName cap.excluded k c

def recordedKeys : List ClientKey := s.clientOrder.filter (recorded cap s)

/-- The captured clients of a monitor in the order of its list: the tiled or the floating ones. -/
def savedSide (m : MonitorKey) (floating : Bool) : List ClientKey :=
  (((s.monitorClients.get? m).getD []).filter (recorded cap s)).filter fun k => s.isClientFloating k == floating

/-- The tiling of a tag that is saved: class, instance and share. -/
def savedTiling (m : MonitorKey) (tag : Nat) : List (SessionWindowIdentity × Float32) :=
  ((savedSide cap s m false).filter fun k => (s.tagsOf k).getLsbD tag).map fun k => (s.identityOf k, s.factOf k)

/-- The later windows, each with the captured client it stands for: the k-th window of an application
with the k-th captured client of it, by the two client orders. -/
def handedOut : List (ClientKey × ClientKey) :=
  pairUp (fun w => (t.identityOf w).folded) (fun c => (s.identityOf c).folded) t.clientOrder (recordedKeys cap s)

/-- The windows that stand for the clients of a monitor, the tiled or the floating ones. -/
def handedTo (m : MonitorKey) (floating : Bool) : List (ClientKey × ClientKey) :=
  (handedOut cap s t).filter fun p => decide (s.monOf p.2 = some m) && s.isClientFloating p.2 == floating

/-- The saved places of a monitor, each with the window that fills it: the k-th place of an application
with the k-th window that stands for a client of it there. -/
def laidOut (m : MonitorKey) (floating : Bool) : List (ClientKey × ClientKey × ClientKey) :=
  pairUp (fun c => (s.identityOf c).folded) (fun p => (t.identityOf p.1).folded) (savedSide cap s m floating)
    (handedTo cap s t m floating)

/-- On every tag of every monitor the windows that fill the places of the tiles read as the tiles. -/
def OrdersAgree : Prop :=
  ∀ m ∈ s.monitorOrder, ∀ tag,
    (((laidOut cap s t m false).filter fun q => (s.tagsOf q.2.2).getLsbD tag).map fun q =>
      (t.identityOf q.2.1, s.factOf q.2.2)) = savedTiling cap s m tag

end Captured

/-- Monitor numbers name the monitors. -/
structure NumberedMonitors (s : WMState) : Prop where
  nodup : s.monitorOrder.Nodup
  range : ∀ m ∈ s.monitorOrder, ∃ n, s.numOf m = some n ∧ 0 ≤ n ∧ n < 2 ^ 31
  distinct : ∀ m ∈ s.monitorOrder, ∀ m' ∈ s.monitorOrder, s.numOf m = s.numOf m' → m = m'

/-- A state to capture: lists in order, every captured client on a monitor, with an instance, tags
within the mask and a share in range; nothing is maximized. -/
structure Capturable (cap : Capture) (tagmask : BitVec 32) (s : WMState) : Prop where
  lists : ListsOk s Set.univ
  numbered : NumberedMonitors s
  listed : ∀ m ∈ s.monitorOrder, ∃ l, s.monitorClients.get? m = some l
  nodup : s.clientOrder.Nodup
  client : ∀ k c, s.clients.get? k = some c → recorded cap s k = true →
    k ∈ s.clientOrder ∧ (∃ m ∈ s.monitorOrder, c.mon = some m) ∧ c.instance ≠ "" ∧
      c.state.tags &&& tagmask = c.state.tags ∧ sanitizeClientFact c.state.clientFact = c.state.clientFact
  unmaximized : ∀ k c, s.clients.get? k = some c → c.state.maximizedAxes.any = false

/-- A later process on the same outputs whose windows have the classes and instances of the captured
clients, as often. -/
structure Later (cap : Capture) (env : SessionEnv) (s t : WMState) : Prop where
  consistent : Consistent t
  numbered : NumberedMonitors t
  nodup : t.clientOrder.Nodup
  mem : ∀ k, k ∈ t.clientOrder ↔ (t.clients.get? k).isSome = true
  ordinary : ∀ k ∈ t.clientOrder, k ∉ env.scratchpads
  windows : (t.clientOrder.map t.identityOf).Perm ((recordedKeys cap s).map s.identityOf)
  outputs : ∀ n, (∃ m ∈ s.monitorOrder, s.numOf m = some n) ↔ ∃ m ∈ t.monitorOrder, t.numOf m = some n

/-! ## Which window takes which entry -/

section Plan

def SessionEntry.identity (e : SessionEntry) : SessionWindowIdentity := ⟨e.class, e.instance⟩

theorem planRestoreLoop_eq : ∀ {slots : List (Bool × SessionEntry)} {clients : List (ClientKey × String × String)},
    (∀ e ∈ slots.map (·.2), e.tags ≠ 0 ∧ e.instance ≠ "") → (∀ c ∈ clients, c.2.2 ≠ "") →
    planRestoreLoop slots clients =
      (claimAll (fun c e => e.identity.matches ⟨c.2.1, c.2.2⟩) clients slots).1.map fun p => (p.1.1, p.2)
  | slots, [], _, _ => rfl
  | slots, (key, cls, inst) :: clients, hs, hc => by
    have hinst : inst ≠ "" := hc (key, cls, inst) mem_cons_self
    have hrest : ∀ c ∈ clients, c.2.2 ≠ "" := fun c hmem => hc c (mem_cons_of_mem _ hmem)
    have hclaim : claimEntry slots cls inst = claimFirst (fun e => e.identity.matches ⟨cls, inst⟩) slots := by
      unfold claimEntry
      simp only
      rw [claimFirst_none (p := fun (e : SessionEntry) => (e.tags != 0 && eqIgnoreAsciiCase e.class cls) && !(e.instance != "" && inst != "")),
        or_none]
      · refine claimFirst_congr fun e he => ?_
        obtain ⟨ht, hi⟩ := hs e he
        rw [bne_iff_ne.2 ht, bne_iff_ne.2 hi, bne_iff_ne.2 hinst, Bool.true_and, Bool.and_true, Bool.and_true]
        rfl
      · intro e he
        obtain ⟨-, hi⟩ := hs e he
        rw [bne_iff_ne.2 hi, bne_iff_ne.2 hinst]
        simp
    rw [planRestoreLoop, hclaim, claimAll]
    cases hf : claimFirst (fun e => e.identity.matches ⟨cls, inst⟩) slots with
    | none => exact planRestoreLoop_eq hs hrest
    | some r =>
      obtain ⟨e, slots'⟩ := r
      have hs' : ∀ e ∈ slots'.map (·.2), e.tags ≠ 0 ∧ e.instance ≠ "" := by
        rw [claimFirst_items hf]
        exact hs
      have rest := planRestoreLoop_eq hs' hrest
      simp only [rest, map_cons]

end Plan

/-! ## What the snapshot says -/

section Snapshot

variable {cap : Capture} {env : SessionEnv} {s t : WMState} {k : ClientKey} {c : WMClient}

theorem filterMap_eq_map_filter {α β : Type} {f : α → Option β} {p : α → Bool} {g : α → β} : ∀ {l : List α},
    (∀ a ∈ l, f a = if p a = true then some (g a) else none) → l.filterMap f = (l.filter p).map g
  | [], _ => rfl
  | a :: l, h => by
    have hrest := filterMap_eq_map_filter fun b hb => h b (mem_cons_of_mem _ hb)
    have ha := h a mem_cons_self
    by_cases hp : p a = true
    · rw [if_pos hp] at ha
      rw [filterMap_cons_some ha, filter_cons_of_pos hp, map_cons, hrest]
    · rw [if_neg hp] at ha
      rw [filterMap_cons_none ha, filter_cons_of_neg hp, hrest]

def entryOf (s : WMState) (k : ClientKey) : SessionEntry where
  «class» := (s.identityOf k).class
  «instance» := (s.identityOf k).instance
  tags := s.tagsOf k
  isFloating := (s.clients.get? k).any (·.restsFloating)
  monitorNum := (((s.monOf k).bind s.numOf).bind u32TryFrom).getD 0
  connector := none
  clientFact := s.factOf k
  isDragFloating := (s.clients.get? k).any fun c => c.restsFloating && c.state.isDragFloating

def savedOrder (cap : Capture) (s : WMState) (m : MonitorKey) : SessionMonitorOrder where
  monitorNum := ((s.numOf m).bind u32TryFrom).getD 0
  connector := none
  clients := (((s.monitorClients.get? m).getD []).filter (recorded cap s)).map s.identityOf

open WMState

theorem entryOf_eq (hc : s.clients.get? k = some c) : entryOf s k = sessionEntry s c := by
  unfold entryOf sessionEntry identityOf tagsOf factOf monOf numOf
  simp only [hc, map_some, getD_some, any_some, bind_some]
  congr 2
  cases c.mon with
  | none => rfl
  | some m =>
    simp only [bind_some]
    cases s.monitors.get? m <;> rfl

theorem snapshot_clients (cap : Capture) (s : WMState) :
    (captureSnapshotExcluding s cap.statusBarName cap.excluded).clients = (recordedKeys cap s).map (entryOf s) := by
  refine filterMap_eq_map_filter fun k _ => ?_
  unfold recorded
  dsimp only
  cases hc : s.clients.get? k with
  | none => rfl
  | some c =>
    rw [entryOf_eq hc, filter_some, any_some]
    split <;> rfl

theorem restingOrder_unmaximized (h : ∀ k c, s.clients.get? k = some c → c.state.maximizedAxes.any = false)
    (list : List ClientKey) : restingOrder s list = list := by
  have hp : ∀ k, restingPromoted s k = false := by
    intro k
    unfold restingPromoted
    cases hc : s.clients.get? k with
    | none => rfl
    | some c => simp [h k c hc]
  have hnone : list.filter (restingPromoted s) = [] := filter_eq_nil_iff.2 fun k _ => by simp [hp k]
  unfold restingOrder
  simp only [hnone, hp, Bool.not_false, filter_true]
  rfl

theorem snapshot_orders (h : Capturable cap env.tagmask s) :
    (captureSnapshotExcluding s cap.statusBarName cap.excluded).monitorOrders = s.monitorOrder.map (savedOrder cap s) := by
  refine (filterMap_eq_map_filter (p := fun _ => true) (g := savedOrder cap s) fun m hm => ?_).trans
    (by rw [filter_true])
  obtain ⟨n, hn, hpos, -⟩ := h.numbered.range m hm
  have hu : u32TryFrom n = some n.toNat := if_pos hpos
  obtain ⟨mon, hmon, rfl⟩ := map_eq_some_iff.1 hn
  rw [if_pos rfl, hmon, bind_some, hu, map_some]
  unfold savedOrder
  rw [hn, bind_some, hu, getD_some]
  cases s.monitorClients.get? m with
  | none => rfl
  | some l =>
    rw [map_some, getD_some, getD_some, restingOrder_unmaximized h.unmaximized]
    refine congrArg (fun clients => some (SessionMonitorOrder.mk mon.num.toNat none clients)) ?_
    refine filterMap_eq_map_filter fun k _ => ?_
    unfold recorded identityOf
    dsimp only
    cases hc : s.clients.get? k with
    | none => rfl
    | some c =>
      rw [filter_some, any_some]
      split <;> rfl

theorem sessionMonitor_iff (h : NumberedMonitors t) {n : Nat} (hn : n < 2 ^ 31) {m : MonitorKey} :
    sessionMonitor env t n none = some m ↔ m ∈ t.monitorOrder ∧ t.numOf m = some (n : Int) := by
  have hresolve : resolveSessionMonitorNum env n none = n := by
    unfold resolveSessionMonitorNum resolveMonitorNumByConnector u32TryFrom
    simp only [if_pos hn, if_pos (Int.natCast_nonneg n), Int.toNat_natCast, getD_some]
  have hp : ∀ m, ((t.monitors.get? m).any fun mon => u32TryFrom mon.num == some n) = true ↔ t.numOf m = some (n : Int) := by
    intro m
    unfold numOf
    cases t.monitors.get? m with
    | none => simp
    | some mon =>
      rw [any_some, beq_iff_eq, map_some, some.injEq]
      unfold u32TryFrom
      split
      · rw [some.injEq]; omega
      · constructor
        · intro e; cases e
        · intro e; omega
  unfold sessionMonitor
  rw [hresolve]
  constructor
  · intro hf
    have hfound := find?_some hf
    exact ⟨mem_of_find?_eq_some hf, (hp m).1 hfound⟩
  · rintro ⟨hmem, hnum⟩
    refine find?_unique hmem ((hp m).2 hnum) fun m' hm' hp' => ?_
    exact h.distinct m' hm' m hmem (((hp m').1 hp').trans hnum.symm)

end Snapshot

/-! ## Which window stands for which client -/

section HandedOut

variable {cap : Capture} {env : SessionEnv} {s t : WMState} {k : ClientKey} {m m' : MonitorKey}

theorem handedOut_paired (ht : Later cap env s t) : Paired (fun w => (t.identityOf w).folded)
    (fun c => (s.identityOf c).folded) t.clientOrder (recordedKeys cap s) (handedOut cap s t) := by
  refine pairUp_paired ?_
  have hp := ht.windows.map folded
  rwa [List.map_map, List.map_map] at hp

theorem mem_handedOut (ht : Later cap env s t) {p : ClientKey × ClientKey} (hp : p ∈ handedOut cap s t) :
    p.1 ∈ t.clientOrder ∧ p.2 ∈ recordedKeys cap s := by
  have h := handedOut_paired ht
  refine ⟨?_, h.perm.subset (List.mem_map_of_mem hp)⟩
  rw [← h.takers]
  exact List.mem_map_of_mem hp

theorem recorded_client (h : recorded cap s k = true) : ∃ c, s.clients.get? k = some c ∧
    sessionSkips cap.statusBarName cap.excluded k c = false := by
  obtain ⟨c, hc, hskip⟩ := (any_eq_true _ _).1 h
  exact ⟨c, hc, by simpa using hskip⟩

theorem tags_of_not_skipped {name : String} {excluded : List ClientKey} {c : WMClient}
    (h : sessionSkips name excluded k c = false) : c.state.tags ≠ 0 := by
  unfold sessionSkips at h
  intro e
  rw [e] at h
  simp at h

section

variable (hs : Capturable cap env.tagmask s)
include hs

theorem entryOf_legal (hk : recorded cap s k = true) : (entryOf s k).Legal env.tagmask := by
  obtain ⟨c, hc, hskip⟩ := recorded_client hk
  obtain ⟨-, -, -, hmask, hfact⟩ := hs.client k c hc hk
  rw [entryOf_eq hc]
  exact ⟨hmask, tags_of_not_skipped hskip, hfact⟩

theorem entryOf_isFloating (k : ClientKey) : (entryOf s k).isFloating = s.isClientFloating k := by
  unfold entryOf WMState.isClientFloating
  dsimp only
  cases hc : s.clients.get? k with
  | none => rfl
  | some c =>
    rw [any_some, any_some, WMClient.restsFloating, if_neg (by rw [hs.unmaximized k c hc]; exact Bool.false_ne_true)]

theorem entryOf_monitor_iff (ht : Later cap env s t) (hk : recorded cap s k = true)
    (hm : m ∈ s.monitorOrder) (hm' : m' ∈ t.monitorOrder) (hnum : t.numOf m' = s.numOf m) :
    sessionMonitor env t (entryOf s k).monitorNum (entryOf s k).connector = some m' ↔ s.monOf k = some m := by
  obtain ⟨c, hc, -⟩ := recorded_client hk
  obtain ⟨-, ⟨mk, hmk, hcm⟩, -⟩ := hs.client k c hc hk
  have hmon : s.monOf k = some mk := by rw [WMState.monOf, hc]; exact hcm
  obtain ⟨n, hn, hpos, hlt⟩ := hs.numbered.range mk hmk
  have hentry : (entryOf s k).monitorNum = n.toNat := by
    show (((s.monOf k).bind s.numOf).bind u32TryFrom).getD 0 = n.toNat
    rw [hmon, bind_some, hn, bind_some, u32TryFrom, if_pos hpos, getD_some]
  show sessionMonitor env t (entryOf s k).monitorNum none = some m' ↔ _
  rw [hentry, sessionMonitor_iff ht.numbered (by omega), hmon, Int.toNat_of_nonneg hpos, hnum, ← hn]
  constructor
  · rintro ⟨-, e⟩
    rw [hs.numbered.distinct m hm mk hmk e]
  · rintro ⟨⟩
    exact ⟨hm', rfl⟩

theorem entryOf_monitor (ht : Later cap env s t) (hk : recorded cap s k = true) :
    ∃ m', sessionMonitor env t (entryOf s k).monitorNum (entryOf s k).connector = some m' := by
  obtain ⟨c, hc, -⟩ := recorded_client hk
  obtain ⟨-, ⟨mk, hmk, hcm⟩, -⟩ := hs.client k c hc hk
  obtain ⟨n, hn, -⟩ := hs.numbered.range mk hmk
  obtain ⟨m', hm', hn'⟩ := (ht.outputs n).1 ⟨mk, hmk, hn⟩
  refine ⟨m', (entryOf_monitor_iff hs ht hk hmk hm' (hn'.trans hn.symm)).2 ?_⟩
  rw [WMState.monOf, hc]
  exact hcm

end

def currentWindows (t : WMState) : List (ClientKey × String × String) :=
  t.clientOrder.map fun w => (w, (t.identityOf w).class, (t.identityOf w).instance)

theorem currentWindows_eq (ht : Later cap env s t) :
    ((t.clientOrder.filter fun key => !env.scratchpads.contains key).filterMap fun key =>
      (t.clients.get? key).map fun c => (key, c.class, c.instance)) = currentWindows t := by
  have hall : (t.clientOrder.filter fun key => !env.scratchpads.contains key) = t.clientOrder :=
    filter_eq_self.2 fun k hk => by simpa using ht.ordinary k hk
  rw [hall]
  refine (filterMap_eq_map_filter (p := fun _ => true)
    (g := fun w => (w, (t.identityOf w).class, (t.identityOf w).instance)) fun k hk => ?_).trans (by rw [filter_true]; rfl)
  obtain ⟨c, hc⟩ := isSome_iff_exists.1 ((ht.mem k).1 hk)
  rw [hc, if_pos rfl, WMState.identityOf, hc]
  rfl

theorem plans_eq (hs : Capturable cap env.tagmask s) (ht : Later cap env s t) :
    planRestoreDetailed (captureSnapshotExcluding s cap.statusBarName cap.excluded) (currentWindows t) =
      (handedOut cap s t).map fun p => (p.1, entryOf s p.2) := by
  have hrec : ∀ k ∈ recordedKeys cap s, recorded cap s k = true := fun k hk => (mem_filter.1 hk).2
  have hentries : ∀ e ∈ ((recordedKeys cap s).map (entryOf s)), e.tags ≠ 0 ∧ e.instance ≠ "" := by
    intro e he
    obtain ⟨k, hk, rfl⟩ := List.mem_map.1 he
    obtain ⟨c, hc, -⟩ := recorded_client (hrec k hk)
    obtain ⟨-, -, hinst, -⟩ := hs.client k c hc (hrec k hk)
    refine ⟨(entryOf_legal hs (hrec k hk)).tagged, ?_⟩
    rw [entryOf_eq hc]
    exact hinst
  have hwindows : ∀ c ∈ currentWindows t, c.2.2 ≠ "" := by
    intro c hc
    obtain ⟨w, hw, rfl⟩ := List.mem_map.1 hc
    obtain ⟨k, hk, e⟩ := List.mem_map.1 (ht.windows.subset (List.mem_map_of_mem hw))
    obtain ⟨-, hinst⟩ := hentries _ (List.mem_map_of_mem hk)
    rw [← e]
    exact hinst
  have hslots : (((recordedKeys cap s).map (entryOf s)).map fun e => (false, e)).map (·.2) =
      (recordedKeys cap s).map (entryOf s) := by
    rw [List.map_map]
    exact map_id _
  unfold planRestoreDetailed
  rw [snapshot_clients, planRestoreLoop_eq (by rw [hslots]; exact hentries) hwindows]
  -- both matchings pair the windows with the entries by folded identity
  have hhanded := @Paired.map _ _ _ _ _ _ _ _ _ _ _ (fun w => (w, (t.identityOf w).class, (t.identityOf w).instance)) (entryOf s)
    (fun c : ClientKey × String × String => (⟨c.2.1, c.2.2⟩ : SessionWindowIdentity).folded)
    (fun e : SessionEntry => e.identity.folded) (handedOut_paired ht) (fun _ => rfl) (fun _ => rfl)
  have hperm : ((currentWindows t).map fun c => (⟨c.2.1, c.2.2⟩ : SessionWindowIdentity).folded).Perm
      (((recordedKeys cap s).map (entryOf s)).map fun e => e.identity.folded) := by
    have hp := ht.windows.map folded
    rw [List.map_map, List.map_map] at hp
    unfold currentWindows
    rw [List.map_map, List.map_map]
    exact hp
  have hclaimed := claimAll_eq (r := fun c e => e.identity.matches ⟨c.2.1, c.2.2⟩)
    (fun c e => matches_eq e.identity ⟨c.2.1, c.2.2⟩) hperm hhanded
  rw [hclaimed.1, List.map_map]
  rfl

end HandedOut

/-! ## The windows in place -/

section Placed

variable {cap : Capture} {env : SessionEnv} {s t : WMState} {m m' : MonitorKey}

def plansOf (cap : Capture) (s t : WMState) : List (ClientKey × SessionEntry) :=
  (handedOut cap s t).map fun p => (p.1, entryOf s p.2)

def placedState (cap : Capture) (env : SessionEnv) (s t : WMState) : WMState :=
  (plansOf cap s t).foldl (placeClient env) ((plansOf cap s t).foldl (moveToSavedMonitor env) t)

/-- Every window has what its client had, and each list holds the windows of its monitor's clients, tiles
first. -/
structure InPlace (cap : Capture) (s t r : WMState) : Prop where
  consistent : Consistent r
  faces : SameFaces t r
  identity : ∀ k, r.identityOf k = t.identityOf k
  placed : ∀ p ∈ handedOut cap s t, r.tagsOf p.1 = s.tagsOf p.2 ∧ r.isClientFloating p.1 = s.isClientFloating p.2 ∧
    r.factOf p.1 = s.factOf p.2
  present : ∀ k, (r.clients.get? k).isSome = (t.clients.get? k).isSome
  owned : ∀ k, (r.clients.get? k).isSome = true → ∃ m, r.monOf k = some m
  lists : ∀ m ∈ s.monitorOrder, ∀ m' ∈ t.monitorOrder, t.numOf m' = s.numOf m → ∀ l, r.monitorClients.get? m' = some l →
    l = (handedTo cap s t m false).map (·.1) ++ (handedTo cap s t m true).map (·.1)

theorem placedState_inPlace (hs : Capturable cap env.tagmask s) (ht : Later cap env s t) :
    InPlace cap s t (placedState cap env s t) := by
  have hrec : ∀ p ∈ handedOut cap s t, recorded cap s p.2 = true :=
    fun p hp => (mem_filter.1 (mem_handedOut ht hp).2).2
  have hkeys : (plansOf cap s t).map (·.1) = t.clientOrder := by
    unfold plansOf
    rw [List.map_map]
    exact (handedOut_paired ht).takers
  have hplan : ∀ p ∈ plansOf cap s t, (t.clients.get? p.1).isSome = true ∧ p.2.Legal env.tagmask ∧
      ∃ m, sessionMonitor env t p.2.monitorNum p.2.connector = some m := by
    intro p hp
    obtain ⟨q, hq, rfl⟩ := List.mem_map.1 hp
    exact ⟨(ht.mem q.1).1 (mem_handedOut ht hq).1, entryOf_legal hs (hrec q hq), entryOf_monitor hs ht (hrec q hq)⟩
  have hnd : ((plansOf cap s t).map (·.1)).Nodup := by rw [hkeys]; exact ht.nodup
  obtain ⟨h1, hf1, hcard1, hmon1, -⟩ := @moved_spec env _ _ ht.consistent hnd
    fun p hp => ⟨(hplan p hp).1, (hplan p hp).2.2⟩
  have hpresent1 : ∀ k, (((plansOf cap s t).foldl (moveToSavedMonitor env) t).clients.get? k).isSome =
      (t.clients.get? k).isSome := by
    intro k
    have := congrArg isSome (hcard1 k)
    rwa [isSome_map, isSome_map] at this
  have hl := @linedUp_foldl env _ (plansOf cap s t) _ _ (LinedUp.nil h1) hnd
    fun p hp => ⟨by rw [hpresent1]; exact (hplan p hp).1, (hplan p hp).2.1⟩
  have hl : LinedUp ((plansOf cap s t).foldl (moveToSavedMonitor env) t) (placedState cap env s t) (plansOf cap s t) := hl
  generalize placedState cap env s t = r at hl ⊢
  have hpresent : ∀ k, (r.clients.get? k).isSome = (t.clients.get? k).isSome := by
    intro k
    have := congrArg isSome (hl.names k)
    rw [isSome_map, isSome_map] at this
    exact this.trans (hpresent1 k)
  refine ⟨hl.consistent, hf1.trans hl.faces, fun k => ?_, fun p hp => ?_, hpresent, fun k hk => ?_,
    fun m hm m' hm' hnum l hlist => ?_⟩
  · have hcard := congrArg (Option.map fun card => card.1) (hcard1 k)
    rw [Option.map_map, Option.map_map] at hcard
    exact congrArg (·.getD ⟨"", ""⟩) ((hl.names k).trans hcard)
  · obtain ⟨c, hc, htags, hfloat, hfact⟩ := hl.placed _ (List.mem_map_of_mem hp)
    rw [entryOf_isFloating hs] at hfloat
    unfold WMState.tagsOf WMState.factOf WMState.isClientFloating
    rw [hc]
    exact ⟨htags, hfloat, hfact⟩
  · rw [hpresent] at hk
    have hk : k ∈ (plansOf cap s t).map (·.1) := by rw [hkeys]; exact (ht.mem k).2 hk
    obtain ⟨p, hp, rfl⟩ := List.mem_map.1 hk
    obtain ⟨-, -, m, hm⟩ := hplan p hp
    exact ⟨m, (hl.mon p.1).trans ((hmon1 p hp).trans hm)⟩
  · have hall : ∀ k, (r.clients.get? k).isSome = true → k ∈ (plansOf cap s t).map (·.1) := by
      intro k hk
      rw [hpresent] at hk
      rw [hkeys]
      exact (ht.mem k).2 hk
    have side : ∀ b, ((plansOf cap s t).filter fun p => decide (r.monOf p.1 = some m') && p.2.isFloating == b).map (·.1) =
        (handedTo cap s t m b).map (·.1) := by
      intro b
      unfold plansOf handedTo
      rw [List.filter_map, List.map_map]
      refine congrArg _ (filter_congr fun p hp => ?_)
      have hiff := entryOf_monitor_iff hs ht (hrec p hp) hm hm' hnum
      have hmonr : r.monOf p.1 = sessionMonitor env t (entryOf s p.2).monitorNum (entryOf s p.2).connector :=
        (hl.mon p.1).trans (hmon1 _ (List.mem_map_of_mem hp))
      rw [← hmonr] at hiff
      show (decide (r.monOf p.1 = some m') && (entryOf s p.2).isFloating == b) = _
      rw [decide_eq_decide.2 hiff, entryOf_isFloating hs]
    rw [← side, ← side]
    exact hl.list_eq hlist hall

theorem laidOut_paired (hs : Capturable cap env.tagmask s) (ht : Later cap env s t) (hm : m ∈ s.monitorOrder) (b : Bool) :
    Paired (fun c => (s.identityOf c).folded) (fun p => (t.identityOf p.1).folded) (savedSide cap s m b)
      (handedTo cap s t m b) (laidOut cap s t m b) := by
  have hhanded := handedOut_paired ht
  have hkeys : (handedTo cap s t m b).map (fun p => (t.identityOf p.1).folded) =
      ((handedTo cap s t m b).map (·.2)).map fun c => (s.identityOf c).folded := by
    rw [List.map_map]
    refine map_congr_left fun p hp => ?_
    exact (hhanded.keys p (mem_of_mem_filter hp)).symm
  have hperm : ((handedTo cap s t m b).map (·.2)).Perm (savedSide cap s m b) := by
    have hfilter : (handedTo cap s t m b).map (·.2) =
        ((handedOut cap s t).map (·.2)).filter fun c => decide (s.monOf c = some m) && s.isClientFloating c == b := by
      rw [List.filter_map]
      rfl
    rw [hfilter]
    refine (hhanded.perm.filter _).trans ?_
    obtain ⟨l, hl⟩ := hs.listed m hm
    refine (perm_ext_iff_of_nodup ?_ ?_).2 fun k => ?_
    · exact (hs.nodup.filter _).filter _
    · unfold savedSide
      rw [hl]
      exact ((hs.lists.nodup m l hl).filter _).filter _
    · unfold recordedKeys savedSide
      rw [hl, getD_some]
      simp only [mem_filter, Bool.and_eq_true, decide_eq_true_eq, beq_iff_eq]
      have hmem := hs.lists.mem m l hl k
      constructor
      · rintro ⟨⟨-, hrec⟩, hmon, hf⟩
        exact ⟨⟨hmem.2 ⟨Set.mem_univ k, hmon⟩, hrec⟩, hf⟩
      · rintro ⟨⟨hk, hrec⟩, hf⟩
        obtain ⟨c, hc, -⟩ := recorded_client hrec
        exact ⟨⟨(hs.client k c hc hrec).1, hrec⟩, (hmem.1 hk).2, hf⟩
  refine pairUp_paired ?_
  rw [hkeys]
  exact (hperm.map _).symm

theorem planOrderRestore_eq {saved : List SessionWindowIdentity} {current : List (ClientKey × SessionWindowIdentity)}
    {pairs : List (SessionWindowIdentity × ClientKey × SessionWindowIdentity)}
    (h : Paired folded (fun entry => entry.2.folded) saved current pairs) :
    planOrderRestore saved current = pairs.map (·.2.1) := by
  have hclaimed := claimAll_eq (r := fun identity (entry : ClientKey × SessionWindowIdentity) => entry.2.matches identity)
    (fun identity entry => matches_eq entry.2 identity) h.keys_perm h
  unfold planOrderRestore
  simp only
  rw [hclaimed.1, hclaimed.2, map_nil, append_nil]

section

variable (hs : Capturable cap env.tagmask s)
include hs

theorem savedOrder_clients (hm : m ∈ s.monitorOrder) :
    (savedOrder cap s m).clients = (savedSide cap s m false ++ savedSide cap s m true).map s.identityOf := by
  obtain ⟨l, hl⟩ := hs.listed m hm
  unfold savedOrder savedSide
  simp only [hl, getD_some]
  have hgroup := (@List.Pairwise.sublist _ (l.filter (recorded cap s)) _ _ filter_sublist (hs.lists.grouped m l hl))
  have heq := Grouped.eq_filter hgroup
  refine congrArg _ (heq.trans ?_)
  simp

theorem reorderedList_eq (ht : Later cap env s t) (hm : m ∈ s.monitorOrder)
    {r : WMState} (hr : InPlace cap s t r) :
    reorderedList env r (savedOrder cap s m) ((handedTo cap s t m false).map (·.1) ++ (handedTo cap s t m true).map (·.1)) =
      (laidOut cap s t m false).map (·.2.1) ++ (laidOut cap s t m true).map (·.2.1) := by
  have hin : ∀ b, ∀ p ∈ handedTo cap s t m b, p ∈ handedOut cap s t ∧ s.isClientFloating p.2 = b := by
    intro b p hp
    obtain ⟨hmem, hcond⟩ := mem_filter.1 hp
    rw [Bool.and_eq_true, beq_iff_eq] at hcond
    exact ⟨hmem, hcond.2⟩
  have hcur : ((handedTo cap s t m false).map (·.1) ++ (handedTo cap s t m true).map (·.1)).filterMap
      (fun key => (r.clients.get? key).map fun c => (key, c.identity)) =
        (handedTo cap s t m false ++ handedTo cap s t m true).map fun p => (p.1, t.identityOf p.1) := by
    rw [← map_append, filterMap_map]
    refine (filterMap_eq_map_filter (p := fun _ => true) fun p hp => ?_).trans (by rw [filter_true])
    have hp : p ∈ handedOut cap s t := by
      rcases mem_append.1 hp with hp | hp
      · exact (hin _ p hp).1
      · exact (hin _ p hp).1
    obtain ⟨c, hc⟩ := isSome_iff_exists.1
      ((hr.present p.1).trans ((ht.mem p.1).1 (mem_handedOut ht hp).1))
    rw [if_pos rfl, ← hr.identity p.1, WMState.identityOf, comp_apply, hc]
    rfl
  have hordinary : ∀ entry ∈ (handedTo cap s t m false ++ handedTo cap s t m true).map (fun p => (p.1, t.identityOf p.1)),
      env.scratchpads.contains entry.1 = false := by
    intro entry he
    obtain ⟨p, hp, rfl⟩ := List.mem_map.1 he
    have hp : p ∈ handedOut cap s t := by
      rcases mem_append.1 hp with hp | hp
      · exact (hin _ p hp).1
      · exact (hin _ p hp).1
    simpa using ht.ordinary p.1 (mem_handedOut ht hp).1
  have hlaid := (laidOut_paired hs ht hm false).append (laidOut_paired hs ht hm true)
  have hplanned : planOrderRestore (savedOrder cap s m).clients
      ((handedTo cap s t m false ++ handedTo cap s t m true).map fun p => (p.1, t.identityOf p.1)) =
        (laidOut cap s t m false ++ laidOut cap s t m true).map (·.2.1) := by
    have hmapped : Paired folded (fun entry : ClientKey × SessionWindowIdentity => entry.2.folded)
        ((savedSide cap s m false ++ savedSide cap s m true).map s.identityOf)
        ((handedTo cap s t m false ++ handedTo cap s t m true).map fun p => (p.1, t.identityOf p.1))
        ((laidOut cap s t m false ++ laidOut cap s t m true).map
          (Prod.map s.identityOf fun p => (p.1, t.identityOf p.1))) :=
      hlaid.map (fun c => Eq.refl (s.identityOf c).folded) (fun p => Eq.refl (t.identityOf p.1).folded)
    rw [savedOrder_clients hs hm, planOrderRestore_eq hmapped, List.map_map]
    rfl
  have hfloat : ∀ b, ∀ q ∈ laidOut cap s t m b, r.isClientFloating q.2.1 = b := by
    intro b q hq
    have hmem := hin b q.2 ((laidOut_paired hs ht hm b).perm.subset (List.mem_map_of_mem hq))
    rw [(hr.placed q.2 hmem.1).2.1, hmem.2]
  have hkeep : ∀ b, ((laidOut cap s t m b).map (·.2.1)).filter (r.isClientFloating · == b) =
      (laidOut cap s t m b).map (·.2.1) := by
    intro b
    refine filter_eq_self.2 fun k hk => ?_
    obtain ⟨q, hq, rfl⟩ := List.mem_map.1 hk
    rw [hfloat b q hq, beq_self_eq_true]
  have hdrop : ∀ b b', b ≠ b' → ((laidOut cap s t m b).map (·.2.1)).filter (r.isClientFloating · == b') = [] := by
    intro b b' hne
    refine filter_eq_nil_iff.2 fun k hk => ?_
    obtain ⟨q, hq, rfl⟩ := List.mem_map.1 hk
    rw [hfloat b q hq, beq_iff_eq]
    exact hne
  have hfalse : (fun k => !r.isClientFloating k) = fun k => r.isClientFloating k == false := by
    funext k
    cases r.isClientFloating k <;> rfl
  have htrue : r.isClientFloating = fun k => r.isClientFloating k == true := by
    funext k
    cases r.isClientFloating k <;> rfl
  have hnone : ((handedTo cap s t m false ++ handedTo cap s t m true).map fun p => (p.1, t.identityOf p.1)).filter
      (fun entry => env.scratchpads.contains entry.1) = [] :=
    filter_eq_nil_iff.2 fun entry he => by rw [hordinary entry he]; exact Bool.false_ne_true
  have hevery : ((handedTo cap s t m false ++ handedTo cap s t m true).map fun p => (p.1, t.identityOf p.1)).filter
      (not ∘ fun entry => env.scratchpads.contains entry.1) =
        (handedTo cap s t m false ++ handedTo cap s t m true).map fun p => (p.1, t.identityOf p.1) :=
    filter_eq_self.2 fun entry he => by rw [comp_apply, hordinary entry he]; rfl
  unfold reorderedList
  simp only [hcur]
  rw [if_neg (by simp), partition_eq_filter_filter]
  simp only [hnone, hevery, hplanned, map_nil, append_nil]
  rw [map_append, filter_append, filter_append, hfalse, hkeep false, hdrop true false (by decide)]
  rw [htrue, hkeep true, hdrop false true (by decide), append_nil, nil_append]

theorem savedOrder_monitor_iff (ht : Later cap env s t) {r : WMState}
    (hr : SameFaces t r) {m0 : MonitorKey} (hm0 : m0 ∈ s.monitorOrder) (hm : m ∈ s.monitorOrder) (hm' : m' ∈ t.monitorOrder)
    (hnum : t.numOf m' = s.numOf m) :
    sessionMonitor env r (savedOrder cap s m0).monitorNum (savedOrder cap s m0).connector = some m' ↔ m0 = m := by
  obtain ⟨n, hn, hpos, hlt⟩ := hs.numbered.range m0 hm0
  have hentry : (savedOrder cap s m0).monitorNum = n.toNat := by
    show ((s.numOf m0).bind u32TryFrom).getD 0 = n.toNat
    rw [hn, bind_some, u32TryFrom, if_pos hpos, getD_some]
  rw [sessionMonitor_congr hr]
  show sessionMonitor env t (savedOrder cap s m0).monitorNum none = some m' ↔ _
  rw [hentry, sessionMonitor_iff ht.numbered (by omega), Int.toNat_of_nonneg hpos, hnum, ← hn]
  constructor
  · rintro ⟨-, e⟩
    exact (hs.numbered.distinct m hm m0 hm0 e).symm
  · rintro rfl
    exact ⟨hm', rfl⟩

theorem restored_list (ht : Later cap env s t) (hm : m ∈ s.monitorOrder)
    (hm' : m' ∈ t.monitorOrder) (hnum : t.numOf m' = s.numOf m) {r : WMState} (hr : InPlace cap s t r) :
    (restoreMonitorClientOrder env r (captureSnapshotExcluding s cap.statusBarName cap.excluded)).monitorClients.get? m' =
      some ((laidOut cap s t m false).map (·.2.1) ++ (laidOut cap s t m true).map (·.2.1)) := by
  obtain ⟨before, later, hsplit⟩ := append_of_mem hm
  have hnd := hs.numbered.nodup
  rw [hsplit, nodup_append, nodup_cons] at hnd
  obtain ⟨-, ⟨hlater, -⟩, hbefore⟩ := hnd
  have honly := fun m0 hm0 => @savedOrder_monitor_iff _ _ _ _ _ _ hs ht _ hr.faces m0 hm0 hm hm' hnum
  obtain ⟨f, hf⟩ := (ht.consistent.order.mem m').1 hm'
  obtain ⟨⟨l, hl⟩, -⟩ := hr.consistent.kept m' f (by rw [hr.faces.face]; exact hf)
  unfold restoreMonitorClientOrder
  rw [snapshot_orders hs, hsplit, map_append, map_cons, restoreOrders_get? ((honly m hm).2 rfl), hl,
    hr.lists m hm m' hm' hnum l hl, map_some, reorderedList_eq hs ht hm hr]
  · intro o ho
    obtain ⟨m0, hm0, rfl⟩ := List.mem_map.1 ho
    intro e
    rw [honly m0 (by rw [hsplit]; exact mem_append_left _ hm0)] at e
    exact hbefore m0 hm0 m mem_cons_self e
  · intro o ho
    obtain ⟨m0, hm0, rfl⟩ := List.mem_map.1 ho
    intro e
    rw [honly m0 (by rw [hsplit]; exact mem_append_right _ (mem_cons_of_mem _ hm0))] at e
    exact hlater (e ▸ hm0)

/-- The tiling of a tag after the restore: the windows in the places of the tiles. -/
theorem restored_tiling (ht : Later cap env s t) (hm : m ∈ s.monitorOrder)
    (hm' : m' ∈ t.monitorOrder) (hnum : t.numOf m' = s.numOf m) {r : WMState} (hr : InPlace cap s t r) (tag : Nat) :
    (restoreMonitorClientOrder env r (captureSnapshotExcluding s cap.statusBarName cap.excluded)).tiling m' tag =
      ((laidOut cap s t m false).filter fun q => (s.tagsOf q.2.2).getLsbD tag).map fun q =>
        (t.identityOf q.2.1, s.factOf q.2.2) := by
  have hlist := restored_list hs ht hm hm' hnum hr
  have hframe := restoreOrders_frame env
    (captureSnapshotExcluding s cap.statusBarName cap.excluded).monitorOrders r
  have hclients : (restoreMonitorClientOrder env r
      (captureSnapshotExcluding s cap.statusBarName cap.excluded)).clients = r.clients := by
    unfold restoreMonitorClientOrder
    rw [hframe]
  generalize restoreMonitorClientOrder env r (captureSnapshotExcluding s cap.statusBarName cap.excluded) = u at hlist hclients
  have hin : ∀ b, ∀ q ∈ laidOut cap s t m b, q.2 ∈ handedOut cap s t ∧ s.isClientFloating q.2.2 = b := by
    intro b q hq
    have hmem := (laidOut_paired hs ht hm b).perm.subset (List.mem_map_of_mem hq)
    obtain ⟨hmem, hcond⟩ := mem_filter.1 hmem
    rw [Bool.and_eq_true, beq_iff_eq] at hcond
    exact ⟨hmem, hcond.2⟩
  have hfloat : u.isClientFloating = r.isClientFloating := by
    unfold WMState.isClientFloating
    rw [hclients]
  have htags : u.tagsOf = r.tagsOf := by
    unfold WMState.tagsOf
    rw [hclients]
  have hread : ∀ k, (u.identityOf k, u.factOf k) = (t.identityOf k, r.factOf k) := by
    intro k
    rw [← hr.identity k]
    unfold WMState.identityOf WMState.factOf
    rw [hclients]
  have htiled : u.tiledOn m' = (laidOut cap s t m false).map (·.2.1) := by
    unfold WMState.tiledOn
    rw [hlist, getD_some, hfloat, filter_append]
    have hkeep : ((laidOut cap s t m false).map (·.2.1)).filter (fun k => !r.isClientFloating k) =
        (laidOut cap s t m false).map (·.2.1) := by
      refine filter_eq_self.2 fun k hk => ?_
      obtain ⟨q, hq, rfl⟩ := List.mem_map.1 hk
      rw [(hr.placed q.2 (hin _ q hq).1).2.1, (hin _ q hq).2]
      rfl
    have hdrop : ((laidOut cap s t m true).map (·.2.1)).filter (fun k => !r.isClientFloating k) = [] := by
      refine filter_eq_nil_iff.2 fun k hk => ?_
      obtain ⟨q, hq, rfl⟩ := List.mem_map.1 hk
      rw [(hr.placed q.2 (hin _ q hq).1).2.1, (hin _ q hq).2]
      exact Bool.false_ne_true
    rw [hkeep, hdrop, append_nil]
  unfold WMState.tiling
  rw [htiled, htags, List.filter_map, List.map_map]
  have hsame : (laidOut cap s t m false).filter ((fun k => (r.tagsOf k).getLsbD tag) ∘ fun q => q.2.1) =
      (laidOut cap s t m false).filter fun q => (s.tagsOf q.2.2).getLsbD tag := by
    refine filter_congr fun q hq => ?_
    rw [comp_apply, (hr.placed q.2 (hin _ q hq).1).1]
  rw [hsame]
  refine map_congr_left fun q hq => ?_
  rw [comp_apply, hread, (hr.placed q.2 (hin _ q (mem_of_mem_filter hq)).1).2.2]

end

theorem restored_once (env : SessionEnv) {r : WMState} (hr : InPlace cap s t r) (orders : List SessionMonitorOrder)
    {k : ClientKey} (hk : ((orders.foldl (restoreMonitorOrder env) r).clients.get? k).isSome = true) :
    ∃ m l, (orders.foldl (restoreMonitorOrder env) r).monitorClients.get? m = some l ∧ l.count k = 1 ∧
      ∀ m' l', (orders.foldl (restoreMonitorOrder env) r).monitorClients.get? m' = some l' → k ∈ l' → m' = m := by
  have hkr : (r.clients.get? k).isSome = true := by
    rw [restoreOrders_frame] at hk
    exact hk
  obtain ⟨m, hmon⟩ := hr.owned k hkr
  have back : ∀ m' l', (orders.foldl (restoreMonitorOrder env) r).monitorClients.get? m' = some l' →
      l'.Nodup ∧ (k ∈ l' ↔ r.monOf k = some m') := by
    intro m' l' hl'
    obtain ⟨l, hl, hp⟩ := restoreOrders_perm env orders r m' l' hl'
    refine ⟨hp.nodup_iff.2 (hr.consistent.lists.nodup m' l hl), ?_⟩
    rw [hp.mem_iff, hr.consistent.lists.mem m' l hl k]
    exact and_iff_right (Set.mem_univ k)
  have hlisted : ∃ l, (orders.foldl (restoreMonitorOrder env) r).monitorClients.get? m = some l := by
    obtain ⟨f, hf⟩ := hr.consistent.live k m hmon
    obtain ⟨⟨l, hl⟩, -⟩ := hr.consistent.kept m f hf
    have keep : ∀ (orders : List SessionMonitorOrder) (r : WMState), (r.monitorClients.get? m).isSome = true →
        ((orders.foldl (restoreMonitorOrder env) r).monitorClients.get? m).isSome = true := by
      intro orders
      induction orders with
      | nil => exact fun _ h => h
      | cons o orders ih =>
        intro r h
        refine ih _ ?_
        rw [restoreMonitorOrder_get?, isSome_map]
        exact h
    exact isSome_iff_exists.1 (keep orders r (by rw [hl]; rfl))
  obtain ⟨l, hl⟩ := hlisted
  obtain ⟨hn, hmem⟩ := back m l hl
  refine ⟨m, l, hl, count_eq_one_of_mem hn (hmem.2 hmon), fun m' l' hl' hk' => ?_⟩
  have := (back m' l' hl').2.1 hk'
  rw [hmon] at this
  exact (some.inj this).symm

end Placed

/-! ## The tiling of a restored session -/

/-- A restore puts every window into one list, and leaves the saved tiling exactly when the windows that the client orders
hand out read, in the places of the saved lists, as the tiles that were there. -/
theorem session_restores_tiling_iff {cap : Capture} {env : SessionEnv} {s t : WMState}
    (hs : Capturable cap env.tagmask s) (ht : Later cap env s t) :
    let r := applySessionSnapshot env t (captureSnapshotExcluding s cap.statusBarName cap.excluded)
    ((∀ k, (r.clients.get? k).isSome = true → ∃ m l, r.monitorClients.get? m = some l ∧ l.count k = 1 ∧
        ∀ m' l', r.monitorClients.get? m' = some l' → k ∈ l' → m' = m) ∧
      ∀ m ∈ s.monitorOrder, ∀ m' ∈ t.monitorOrder, t.numOf m' = s.numOf m → ∀ tag,
        r.tiling m' tag = savedTiling cap s m tag) ↔ OrdersAgree cap s t := by
  have hr := placedState_inPlace hs ht
  intro r
  have happly : r = restoreMonitorClientOrder env (placedState cap env s t)
      (captureSnapshotExcluding s cap.statusBarName cap.excluded) := by
    show applySessionSnapshot env t _ = _
    unfold applySessionSnapshot
    simp only [currentWindows_eq ht, plans_eq hs ht]
    rfl
  have htiling := fun m m' hm hm' hnum tag => @restored_tiling _ _ _ _ m m' hs ht hm hm' hnum _ hr tag
  have honce := fun k => restored_once env hr
    (captureSnapshotExcluding s cap.statusBarName cap.excluded).monitorOrders (k := k)
  rw [happly]
  constructor
  · rintro ⟨-, h⟩ m hm tag
    obtain ⟨n, hn, -⟩ := hs.numbered.range m hm
    obtain ⟨m', hm', hn'⟩ := (ht.outputs n).1 ⟨m, hm, hn⟩
    rw [← htiling m m' hm hm' (hn'.trans hn.symm) tag]
    exact h m hm m' hm' (hn'.trans hn.symm) tag
  · intro h
    refine ⟨honce, fun m hm m' hm' hnum tag => ?_⟩
    rw [htiling m m' hm hm' hnum tag]
    exact h m hm tag

/-- It is enough that names that differ by letter case only do not occur together, and that the tiles of
one application stand in the lists as in the client order. -/
theorem ordersAgree_of_client_order {cap : Capture} {env : SessionEnv} {s t : WMState}
    (hs : Capturable cap env.tagmask s) (ht : Later cap env s t)
    (hnames : ∀ c ∈ recordedKeys cap s, ∀ c' ∈ recordedKeys cap s,
      (s.identityOf c).folded = (s.identityOf c').folded → s.identityOf c = s.identityOf c')
    (horder : ∀ m ∈ s.monitorOrder, ∀ i, ((savedSide cap s m false).filter fun c => (s.identityOf c).folded = i) =
      ((recordedKeys cap s).filter fun c => decide (s.monOf c = some m) && s.isClientFloating c == false).filter
        fun c => (s.identityOf c).folded = i) : OrdersAgree cap s t := by
  intro m hm tag
  have hhanded := handedOut_paired ht
  have hlaid := laidOut_paired hs ht hm false
  have hsub : ∀ q ∈ laidOut cap s t m false, q.2 ∈ handedOut cap s t := fun q hq =>
    mem_of_mem_filter (hlaid.perm.subset (List.mem_map_of_mem hq))
  -- the windows stand for the very tiles whose places they fill
  have hsame : (laidOut cap s t m false).map (·.2.2) = savedSide cap s m false := by
    rw [← hlaid.takers]
    refine @eq_of_keys_of_filter _ _ _ (fun c => (s.identityOf c).folded) _ _ ?_ fun i => ?_
    · rw [List.map_map, List.map_map]
      refine map_congr_left fun q hq => ?_
      exact (hhanded.keys q.2 (hsub q hq)).trans (hlaid.keys q hq)
    · have hplaces : (((laidOut cap s t m false).filter fun q => (s.identityOf q.1).folded = i).map (·.2)).map (·.2) =
          (savedSide cap s m false).filter fun c => (s.identityOf c).folded = i := by
        have hto : ((handedTo cap s t m false).filter fun p => (t.identityOf p.1).folded = i).map (·.2) =
            (((handedOut cap s t).filter fun p => (t.identityOf p.1).folded = i).map (·.2)).filter
              fun c => decide (s.monOf c = some m) && s.isClientFloating c == false := by
          unfold handedTo
          rw [filter_comm, List.filter_map]
          rfl
        rw [hlaid.items i, hto, hhanded.items i, horder m hm i, filter_comm]
      rw [hlaid.takers, ← hplaces, List.filter_map, List.map_map]
      refine congrArg _ (filter_congr fun q hq => ?_)
      have hk := (hhanded.keys q.2 (hsub q hq)).trans (hlaid.keys q hq)
      simp only [comp_apply, hk]
  have hread : ∀ q ∈ laidOut cap s t m false, t.identityOf q.2.1 = s.identityOf q.2.2 := by
    intro q hq
    obtain ⟨hw, hc⟩ := mem_handedOut ht (hsub q hq)
    obtain ⟨c, hc', e⟩ := List.mem_map.1 (ht.windows.subset (List.mem_map_of_mem hw))
    rw [← e]
    refine hnames c hc' q.2.2 hc ?_
    rw [e]
    exact (hhanded.keys q.2 (hsub q hq)).symm
  unfold savedTiling
  rw [← hsame, List.filter_map, List.map_map]
  refine map_congr_left fun q hq => ?_
  rw [comp_apply, hread q (mem_of_mem_filter hq)]

namespace Sample

def screen : MonitorKey := ⟨0, 1⟩
def term1 : ClientKey := ⟨1, 1⟩
def term2 : ClientKey := ⟨2, 1⟩

def terminal (fact : Float32) : WMClient where
  geometry := { floatingRect := ⟨0, 0, 640, 480⟩ }
  state := { tags := 1, clientFact := fact }
  mon := some screen
  «class» := "term"
  «instance» := "term"

/-- Two terminals of unequal share on one tag, the first of them opened first, tiled as in `list`. -/
def terminals (list : List ClientKey) : WMState where
  clients := ⟨[(term1, terminal 1.0), (term2, terminal 2.0)], by decide⟩
  monitors := ⟨[(screen, WMMonitor.new)], by decide⟩
  monitorClients := ⟨[(screen, list)], nodup_singleton screen⟩
  monitorStack := ⟨[(screen, [term2, term1])], by decide⟩
  clientOrder := [term1, term2]
  monitorOrder := [screen]
  selMon := some screen

def everything : Capture where
  statusBarName := "bar"
  excluded := []

def quietEnv : SessionEnv where
  tagmask := 0x1ff
  scratchpads := []
  live := []
  locked := fun _ _ => false
  place := fun _ g => g
  focus := fun _ => ⟨true, true⟩

variable {list : List ClientKey} {k : ClientKey} {c : WMClient} {m : MonitorKey}

theorem terminals_get? (h : (terminals list).clients.get? k = some c) :
    (k = term1 ∧ c = terminal 1.0) ∨ (k = term2 ∧ c = terminal 2.0) := by
  have hmem : (k, c) ∈ [(term1, terminal 1.0), (term2, terminal 2.0)] := KeyMap.get?_eq_some.1 h
  simpa [Prod.ext_iff] using hmem

theorem terminals_monOf : (terminals list).monOf k = some m ↔ m = screen ∧ (k = term1 ∨ k = term2) := by
  constructor
  · intro h
    obtain ⟨c, hc, hcm⟩ := bind_eq_some_iff.1 h
    rcases terminals_get? hc with ⟨rfl, rfl⟩ | ⟨rfl, rfl⟩
    · exact ⟨(some.inj hcm).symm, .inl rfl⟩
    · exact ⟨(some.inj hcm).symm, .inr rfl⟩
  · rintro ⟨rfl, rfl | rfl⟩ <;> rfl

theorem terminals_screen {α : Type} {v w : α} (h : (⟨[(screen, v)], by simp⟩ : KeyMap MonitorKey α).get? m = some w) :
    m = screen ∧ w = v := by
  have hmem := KeyMap.get?_eq_some.1 h
  simpa [Prod.ext_iff] using hmem

theorem terminals_listsOk (hn : list.Nodup) (hl : ∀ k, k ∈ list ↔ k = term1 ∨ k = term2) :
    ListsOk (terminals list) Set.univ := by
  refine ⟨⟨fun m l h => ?_, fun m l h k => ?_⟩, fun m l h => ?_⟩
  · obtain ⟨-, rfl⟩ := terminals_screen h
    exact hn
  · obtain ⟨rfl, rfl⟩ := terminals_screen h
    rw [terminals_monOf, hl]
    simp
  · refine pairwise_of_forall fun a b ha => ?_
    obtain ⟨c, hc, hf⟩ := (any_eq_true _ _).1 ha
    rcases terminals_get? hc with ⟨rfl, rfl⟩ | ⟨rfl, rfl⟩ <;> cases hf

theorem terminals_numbered : NumberedMonitors (terminals list) := by
  refine ⟨by show [screen].Nodup; decide, fun m hm => ?_, fun m hm m' hm' _ => ?_⟩
  · obtain rfl : m = screen := mem_singleton.1 hm
    exact ⟨0, rfl, by omega, by omega⟩
  · exact (mem_singleton.1 hm).trans (mem_singleton.1 hm').symm

theorem terminals_capturable (hn : list.Nodup) (hl : ∀ k, k ∈ list ↔ k = term1 ∨ k = term2) :
    Capturable everything quietEnv.tagmask (terminals list) := by
  have h1 : sanitizeClientFact 1.0 = 1.0 := by decide
  have h2 : sanitizeClientFact 2.0 = 2.0 := by decide
  refine ⟨terminals_listsOk hn hl, terminals_numbered, fun m hm => ?_, by show [term1, term2].Nodup; decide,
    fun k c hc _ => ?_, fun k c hc => ?_⟩
  · obtain rfl : m = screen := mem_singleton.1 hm
    exact ⟨list, rfl⟩
  · rcases terminals_get? hc with ⟨rfl, rfl⟩ | ⟨rfl, rfl⟩
    · exact ⟨by show term1 ∈ [term1, term2]; decide, ⟨screen, by show screen ∈ [screen]; decide, rfl⟩, by decide, by decide, h1⟩
    · exact ⟨by show term2 ∈ [term1, term2]; decide, ⟨screen, by show screen ∈ [screen]; decide, rfl⟩, by decide, by decide, h2⟩
  · rcases terminals_get? hc with ⟨rfl, rfl⟩ | ⟨rfl, rfl⟩ <;> rfl

theorem terminals_consistent (hn : list.Nodup) (hl : ∀ k, k ∈ list ↔ k = term1 ∨ k = term2) :
    Consistent (terminals list) := by
  have hlists := terminals_listsOk hn hl
  have hface : ∀ m f, (terminals list).face m = some f → m = screen := by
    intro m f hf
    obtain ⟨mon, hmon, -⟩ := map_eq_some_iff.1 hf
    exact (terminals_screen hmon).1
  refine ⟨⟨hlists.toListed, fun m l h => ?_, fun k m hk => ?_, fun m f hf => ?_, fun m m' o ho => ?_, fun m mon hm k hk => ?_⟩,
    ⟨by show [screen].Nodup; decide, fun m => ?_⟩, hlists.grouped⟩
  · obtain ⟨rfl, rfl⟩ := terminals_screen h
    refine ⟨by decide, fun k => ?_⟩
    rw [terminals_monOf]
    simp [or_comm]
  · obtain ⟨rfl, -⟩ := terminals_monOf.1 hk
    exact ⟨_, rfl⟩
  · rw [hface m f hf]
    exact ⟨⟨list, rfl⟩, _, rfl⟩
  · cases ho
  · obtain ⟨rfl, rfl⟩ := terminals_screen hm
    cases hk
  · constructor
    · intro h
      obtain rfl : m = screen := mem_singleton.1 h
      exact ⟨_, rfl⟩
    · rintro ⟨f, hf⟩
      exact mem_singleton.2 (hface m f hf)

theorem terminals_later (saved : List ClientKey) (hn : list.Nodup) (hl : ∀ k, k ∈ list ↔ k = term1 ∨ k = term2) :
    Later everything quietEnv (terminals saved) (terminals list) := by
  refine ⟨terminals_consistent hn hl, terminals_numbered, by show [term1, term2].Nodup; decide, fun k => ?_,
    fun k _ => not_mem_nil, ?_, fun n => Iff.rfl⟩
  · constructor
    · intro h
      have h : k ∈ [term1, term2] := h
      rw [mem_cons, mem_singleton] at h
      rcases h with rfl | rfl <;> rfl
    · intro h
      obtain ⟨c, hc⟩ := isSome_iff_exists.1 h
      show k ∈ [term1, term2]
      rcases terminals_get? hc with ⟨rfl, -⟩ | ⟨rfl, -⟩ <;> decide
  · -- names and captured keys do not depend on the list
    have hnames : (terminals []).clientOrder.map (terminals []).identityOf =
        (recordedKeys everything (terminals [])).map (terminals []).identityOf := by decide
    exact .of_eq hnames

end Sample

open Sample

/-- Terminals tiled in the order they were opened come back as they were. -/
theorem session_restores_tiling_sample :
    OrdersAgree Sample.everything (Sample.terminals [Sample.term1, Sample.term2])
      (Sample.terminals [Sample.term2, Sample.term1]) ∧ ∀ tag,
    (applySessionSnapshot Sample.quietEnv (Sample.terminals [Sample.term2, Sample.term1])
      (captureSnapshotExcluding (Sample.terminals [Sample.term1, Sample.term2]) "bar" [])).tiling Sample.screen tag =
    savedTiling Sample.everything (Sample.terminals [Sample.term1, Sample.term2]) Sample.screen tag := by
  have hs : Capturable everything quietEnv.tagmask (terminals [term1, term2]) :=
    terminals_capturable (by decide) (by simp)
  have ht : Later everything quietEnv (terminals [term1, term2])
      (terminals [term2, term1]) :=
    terminals_later _ (by decide) (by simp [or_comm])
  have hagree : OrdersAgree everything (terminals [term1, term2])
      (terminals [term2, term1]) := by
    refine ordersAgree_of_client_order hs ht (fun c hc c' hc' _ => ?_) fun m hm i => ?_
    · have name : ∀ c ∈ [term1, term2],
          (terminals [term1, term2]).identityOf c = ⟨"term", "term"⟩ := by decide +kernel
      rw [name c (mem_of_mem_filter hc), name c' (mem_of_mem_filter hc')]
    · obtain rfl : m = screen := mem_singleton.1 hm
      refine congrArg _ ?_
      decide +kernel
  exact ⟨hagree, fun tag => ((session_restores_tiling_iff hs ht).2 hagree).2 screen (mem_singleton.2 rfl)
    screen (mem_singleton.2 rfl) rfl tag⟩

/-- The second terminal was moved in front of the first: the first window takes the first entry, with the share of the first
terminal, and the first place. -/
theorem session_exchanges_shares :
    Capturable Sample.everything Sample.quietEnv.tagmask (Sample.terminals [Sample.term2, Sample.term1]) ∧
    Later Sample.everything Sample.quietEnv (Sample.terminals [Sample.term2, Sample.term1])
      (Sample.terminals [Sample.term2, Sample.term1]) ∧
    (applySessionSnapshot Sample.quietEnv (Sample.terminals [Sample.term2, Sample.term1])
      (captureSnapshotExcluding (Sample.terminals [Sample.term2, Sample.term1]) "bar" [])).tiling Sample.screen 0 ≠
    savedTiling Sample.everything (Sample.terminals [Sample.term2, Sample.term1]) Sample.screen 0 :=
  ⟨terminals_capturable (by decide) (by simp [or_comm]), terminals_later _ (by decide) (by simp [or_comm]),
    by decide +kernel⟩

end Jwm
