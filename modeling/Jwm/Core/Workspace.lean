/-
Exchanging the workspaces of two monitors (`core/workspace.rs`): clients, lists, focus stacks, tag
views and scrolling strips change sides; numbers, geometry and the physical shell clients (bars,
docks, desktops) stay.
-/
import Jwm.Core.Monitor
import Jwm.Core.Scrolling

namespace Jwm

open List Option

/-- The strips, by monitor and tag mask. -/
abbrev ScrollingMap := KeyMap (MonitorKey × BitVec 32) ScrollingState

/-- `filter(|key| keep(key) && seen.insert(*key))`. -/
def retainUnseen (keep : ClientKey → Bool) : List ClientKey → List ClientKey → List ClientKey
  | _, [] => []
  | seen, key :: keys =>
    if keep key && !seen.contains key then key :: retainUnseen keep (key :: seen) keys
    else retainUnseen keep seen keys

/-- Whether `key` is a client assigned to `mon`. -/
def WMState.ownedBy (s : WMState) (mon : MonitorKey) (key : ClientKey) : Bool :=
  (s.clients.get? key).any (·.mon == some mon)

/-- The clients assigned to `monitor`, those in its list first. -/
def ownedClients (s : WMState) (monitor : MonitorKey) : List ClientKey :=
  retainUnseen (s.ownedBy monitor) []
    (((s.monitorClients.get? monitor).getD []) ++
      s.clients.entries.filterMap fun e => if e.2.mon = some monitor then some e.1 else none)

/-- The focus stack of `mon`, with the clients it misses behind it. -/
def ownedStack (s : WMState) (mon : MonitorKey) (owners : List ClientKey) : List ClientKey :=
  retainUnseen (s.ownedBy mon) [] (((s.monitorStack.get? mon).getD []) ++ owners)

/-- Reassign each of `keys` to `target`. -/
def reassign (s : WMState) (keys : List ClientKey) (target : MonitorKey) : WMState :=
  keys.foldl (fun s key => s.modifyClient key fun client => { client with mon := some target }) s

def rekeyScrolling (scrolling : ScrollingMap) (left right : MonitorKey) : ScrollingMap :=
  let keys := scrolling.keys.filter fun key => key.1 == left || key.1 == right
  let drained := scrolling.drain keys
  drained.2.extend (drained.1.map fun e => ((if e.1.1 = left then right else left, e.1.2), e.2))

/-- The monitors trade places, their numbers and geometry swapped back. -/
def exchangeMonitors (s : WMState) (left right : MonitorKey) (a b : WMMonitor) : WMState :=
  let monitors := s.monitors.modify left fun _ => { b with num := a.num, geometry := a.geometry }
  { s with monitors := monitors.modify right fun _ => { a with num := b.num, geometry := b.geometry } }

def writeLists (s : WMState) (mon : MonitorKey) (list stack : List ClientKey) : WMState :=
  { s with
    monitorClients := s.monitorClients.insert mon list
    monitorStack := s.monitorStack.insert mon stack }

/-- `swap_monitor_contents`, with the state and the strips it leaves behind. -/
def swapMonitorContents (s : WMState) (scrolling : ScrollingMap) (left right : MonitorKey)
    (physicalClients : ClientKey → Bool) : Option (List ClientKey × List ClientKey) × WMState × ScrollingMap :=
  if left = right || !s.monitors.contains left || !s.monitors.contains right then (none, s, scrolling)
  else
    let ownersL := ownedClients s left
    let ownersR := ownedClients s right
    let movedL := ownersL.filter (!physicalClients ·)
    let movedR := ownersR.filter (!physicalClients ·)
    let stackL := ownedStack s left ownersL
    let stackR := ownedStack s right ownersR
    match s.monitors.get? left, s.monitors.get? right with
    | some a, some b =>
      let s := exchangeMonitors s left right a b
      let s := reassign s movedL right
      let s := reassign s movedR left
      let s := writeLists s left (movedR ++ ownersL.filter physicalClients)
        (stackR.filter (!physicalClients ·) ++ stackL.filter physicalClients)
      let s := writeLists s right (movedL ++ ownersR.filter physicalClients)
        (stackL.filter (!physicalClients ·) ++ stackR.filter physicalClients)
      (some (movedL, movedR), s, rekeyScrolling scrolling left right)
    | _, _ => (none, s, scrolling)

/-! ## Consistent lists -/

/-- Both lists of `mon` hold exactly the clients assigned to it, each once. -/
structure MonitorLists (s : WMState) (mon : MonitorKey) (clients stack : List ClientKey) : Prop where
  clientsAt : s.monitorClients.get? mon = some clients
  stackAt : s.monitorStack.get? mon = some stack
  clientsNodup : clients.Nodup
  stackNodup : stack.Nodup
  mem_clients : ∀ k, k ∈ clients ↔ s.monOf k = some mon
  mem_stack : ∀ k, k ∈ stack ↔ s.monOf k = some mon

open WMState

variable {key : ClientKey} {keep : ClientKey → Bool} {s' : WMState}

theorem ownedBy_iff {s : WMState} {mon : MonitorKey} : s.ownedBy mon key = true ↔ s.monOf key = some mon := by
  unfold ownedBy monOf
  cases s.clients.get? key <;> simp

theorem retainUnseen_nil : ∀ {keys seen : List ClientKey},
    (∀ k ∈ keys, keep k = true → k ∈ seen) → retainUnseen keep seen keys = []
  | [], _, _ => rfl
  | key :: keys, seen, h => by
    have hk : ¬ (keep key && !seen.contains key) = true := by
      intro hc
      simp only [Bool.and_eq_true, Bool.not_eq_true', contains_eq_mem, decide_eq_false_iff_not] at hc
      exact hc.2 (h key (mem_cons_self ..) hc.1)
    rw [retainUnseen, if_neg hk]
    exact retainUnseen_nil fun k hk => h k (mem_cons_of_mem _ hk)

/-- A list without repetitions, all of it kept, that already holds whatever is kept of the rest. -/
theorem retainUnseen_append {rest : List ClientKey} :
    ∀ {l seen : List ClientKey}, l.Nodup → (∀ k ∈ l, keep k = true) → (∀ k ∈ l, k ∉ seen) →
      (∀ k ∈ rest, keep k = true → k ∈ l ∨ k ∈ seen) → retainUnseen keep seen (l ++ rest) = l
  | [], _, _, _, _, hr => retainUnseen_nil fun k hk hkeep => (hr k hk hkeep).resolve_left not_mem_nil
  | key :: l, seen, hn, hk, hs, hr => by
    rw [nodup_cons] at hn
    have hc : (keep key && !seen.contains key) = true := by
      have := hs key (mem_cons_self ..)
      simp [hk key (mem_cons_self ..), this]
    rw [cons_append, retainUnseen, if_pos hc]
    congr 1
    refine retainUnseen_append hn.2 (fun k h => hk k (mem_cons_of_mem _ h)) (fun k h hm => ?_) fun k h hkeep => ?_
    · rcases mem_cons.1 hm with rfl | hm
      · exact hn.1 h
      · exact hs k (mem_cons_of_mem _ h) hm
    · rcases hr k h hkeep with hl | hl
      · rcases mem_cons.1 hl with rfl | hl
        · exact .inr (mem_cons_self ..)
        · exact .inl hl
      · exact .inr (mem_cons_of_mem _ hl)

section Owned

variable {s : WMState} {mon : MonitorKey} {clients stack : List ClientKey}

theorem MonitorLists.ownedClients_eq (h : MonitorLists s mon clients stack) : ownedClients s mon = clients := by
  unfold ownedClients
  rw [h.clientsAt, getD_some]
  refine retainUnseen_append h.clientsNodup (fun k hk => ownedBy_iff.2 ((h.mem_clients k).1 hk))
    (fun _ _ => not_mem_nil) fun k _ hk => .inl ((h.mem_clients k).2 (ownedBy_iff.1 hk))

theorem MonitorLists.ownedStack_eq (h : MonitorLists s mon clients stack) (owners : List ClientKey) :
    ownedStack s mon owners = stack := by
  unfold ownedStack
  rw [h.stackAt, getD_some]
  refine retainUnseen_append h.stackNodup (fun k hk => ownedBy_iff.2 ((h.mem_stack k).1 hk))
    (fun _ _ => not_mem_nil) fun k _ hk => .inl ((h.mem_stack k).2 (ownedBy_iff.1 hk))

end Owned

/-! ## What the exchange does -/

def otherSide (left right m : MonitorKey) : MonitorKey := if m = left then right else if m = right then left else m

section Sides

variable {left right : MonitorKey}

theorem otherSide_otherSide (m : MonitorKey) : otherSide left right (otherSide left right m) = m := by
  unfold otherSide
  split_ifs <;> simp_all

theorem otherSide_left : otherSide left right left = right := if_pos rfl

theorem otherSide_right (h : left ≠ right) : otherSide left right right = left := by
  unfold otherSide
  rw [if_neg (Ne.symm h), if_pos rfl]

variable {m : MonitorKey}

theorem otherSide_of_side (h : left ≠ right) (hm : m = left ∨ m = right) :
    (if m = left then right else left) = otherSide left right m := by
  unfold otherSide
  rcases hm with hl | hr
  · rw [if_pos hl, if_pos hl]
  · rw [if_neg (hr ▸ Ne.symm h), if_neg (hr ▸ Ne.symm h), if_pos hr]

theorem otherSide_of_not_side (hm : ¬ (m = left ∨ m = right)) : otherSide left right m = m := by
  unfold otherSide
  rw [if_neg fun e => hm (.inl e), if_neg fun e => hm (.inr e)]

theorem otherSide_side (h : left ≠ right) (hm : m = left ∨ m = right) :
    otherSide left right m = left ∨ otherSide left right m = right := by
  rcases hm with rfl | rfl
  · exact .inr otherSide_left
  · exact .inl (otherSide_right h)

section Moved

variable {keys : List (MonitorKey × BitVec 32)} {scrolling : ScrollingMap}

/-- The entries of `keys`, each under the key of the other side. -/
theorem mem_moved (h : left ≠ right) (hkeys : keys.Nodup)
    (hmem : ∀ key, key ∈ keys ↔ (∃ v, scrolling.get? key = some v) ∧ (key.1 = left ∨ key.1 = right))
    (m : MonitorKey) (tags : BitVec 32) (v : ScrollingState) :
    ((m, tags), v) ∈ ((scrolling.drain keys).1.map fun e => ((if e.1.1 = left then right else left, e.1.2), e.2)) ↔
      (m = left ∨ m = right) ∧ scrolling.get? (otherSide left right m, tags) = some v := by
  rw [List.mem_map]
  constructor
  · rintro ⟨⟨⟨m0, t0⟩, v0⟩, hm, he⟩
    obtain ⟨hk, hv⟩ := (KeyMap.mem_drain keys scrolling hkeys _ _).1 hm
    have hside : m0 = left ∨ m0 = right := ((hmem _).1 hk).2
    obtain ⟨⟨rfl, rfl⟩, rfl⟩ := he
    rw [otherSide_of_side h hside, otherSide_otherSide]
    exact ⟨otherSide_side h hside, hv⟩
  · rintro ⟨hside, hv⟩
    have hother := otherSide_side h hside
    have hk : (otherSide left right m, tags) ∈ keys := (hmem _).2 ⟨⟨v, hv⟩, hother⟩
    refine ⟨((otherSide left right m, tags), v), (KeyMap.mem_drain keys scrolling hkeys _ _).2 ⟨hk, hv⟩, ?_⟩
    simp only [otherSide_of_side h hother, otherSide_otherSide]

theorem nodup_moved (h : left ≠ right) (hkeys : keys.Nodup) (hsides : ∀ key ∈ keys, key.1 = left ∨ key.1 = right) :
    (((scrolling.drain keys).1.map fun e =>
      ((if e.1.1 = left then right else left, e.1.2), e.2)).map Prod.fst).Nodup := by
  have hsub := KeyMap.drain_map_sublist keys scrolling
  have e : ((scrolling.drain keys).1.map fun e =>
      ((if e.1.1 = left then right else left, e.1.2), e.2)).map Prod.fst =
      ((scrolling.drain keys).1.map Prod.fst).map fun key => (if key.1 = left then right else left, key.2) := by
    simp
  rw [e]
  refine (hsub.nodup hkeys).map_on ?_
  intro x hx y hy hxy
  rw [Prod.mk.injEq, otherSide_of_side h (hsides x (hsub.subset hx)), otherSide_of_side h (hsides y (hsub.subset hy))] at hxy
  have h1 := congrArg (otherSide left right) hxy.1
  rw [otherSide_otherSide, otherSide_otherSide] at h1
  exact Prod.ext h1 hxy.2

end Moved

theorem rekeyScrolling_get? (h : left ≠ right) (scrolling : ScrollingMap) (m : MonitorKey) (tags : BitVec 32) :
    (rekeyScrolling scrolling left right).get? (m, tags) = scrolling.get? (otherSide left right m, tags) := by
  have hkeys : (scrolling.keys.filter fun key => key.1 == left || key.1 == right).Nodup :=
    List.Nodup.filter _ scrolling.nodup
  generalize hK : scrolling.keys.filter (fun key => key.1 == left || key.1 == right) = keys at hkeys
  have hmem : ∀ key, key ∈ keys ↔ (∃ v, scrolling.get? key = some v) ∧ (key.1 = left ∨ key.1 = right) := by
    intro key
    rw [← hK, mem_filter, KeyMap.mem_keys]
    simp
  have hsides : ∀ key ∈ keys, key.1 = left ∨ key.1 = right := fun key hk => ((hmem key).1 hk).2
  have hmoved := mem_moved h hkeys hmem
  refine ext fun v => ?_
  unfold rekeyScrolling
  rw [hK, KeyMap.get?_extend _ _ (nodup_moved h hkeys hsides), hmoved, KeyMap.get?_drain]
  by_cases hside : m = left ∨ m = right
  · -- an entry that stood here went to the other side
    constructor
    · rintro (⟨-, hv⟩ | ⟨-, hv⟩)
      · exact hv
      · split_ifs at hv with hk
        exact absurd ((hmem _).2 ⟨⟨v, hv⟩, hside⟩) hk
    · intro hv
      exact .inl ⟨hside, hv⟩
  · have hkey : (m, tags) ∉ keys := fun hk => hside (hsides _ hk)
    have hout : (m, tags) ∉ (((scrolling.drain keys).1.map fun e =>
        ((if e.1.1 = left then right else left, e.1.2), e.2)).map Prod.fst) := by
      intro hm
      obtain ⟨⟨key, w⟩, he, rfl⟩ := mem_map.1 hm
      exact hside ((hmoved _ _ w).1 he).1
    rw [if_neg hkey, otherSide_of_not_side hside]
    constructor
    · rintro (⟨hs, -⟩ | ⟨-, hv⟩)
      · exact absurd hs hside
      · exact hv
    · intro hv
      exact .inr ⟨hout, hv⟩

end Sides

/-! ## Both sides -/

def exchangeClient (left right : MonitorKey) (physical : ClientKey → Bool) (key : ClientKey) (c : WMClient) : WMClient :=
  if physical key then c else { c with mon := c.mon.map (otherSide left right) }

/-- What `swapMonitorContents` leaves behind when both monitors exist and their lists are consistent. -/
structure Exchanged (s : WMState) (scrolling : ScrollingMap) (left right : MonitorKey) (physical : ClientKey → Bool)
    (a b : WMMonitor) (clientsL stackL clientsR stackR : List ClientKey) (s' : WMState) (scrolling' : ScrollingMap) :
    Prop where
  clients : ∀ k, s'.clients.get? k = (s.clients.get? k).map (exchangeClient left right physical k)
  monitorL : s'.monitors.get? left = some { b with num := a.num, geometry := a.geometry }
  monitorR : s'.monitors.get? right = some { a with num := b.num, geometry := b.geometry }
  otherMonitors : ∀ m, m ≠ left → m ≠ right → s'.monitors.get? m = s.monitors.get? m
  listsL : MonitorLists s' left (clientsR.filter (!physical ·) ++ clientsL.filter physical)
    (stackR.filter (!physical ·) ++ stackL.filter physical)
  listsR : MonitorLists s' right (clientsL.filter (!physical ·) ++ clientsR.filter physical)
    (stackL.filter (!physical ·) ++ stackR.filter physical)
  otherLists : ∀ m, m ≠ left → m ≠ right →
    s'.monitorClients.get? m = s.monitorClients.get? m ∧ s'.monitorStack.get? m = s.monitorStack.get? m
  strips : ∀ m tags, scrolling'.get? (m, tags) = scrolling.get? (otherSide left right m, tags)

theorem reassign_frame : ∀ (keys : List ClientKey) (target : MonitorKey) (s : WMState),
    (reassign s keys target).monitors = s.monitors ∧ (reassign s keys target).monitorClients = s.monitorClients ∧
      (reassign s keys target).monitorStack = s.monitorStack
  | [], _, _ => ⟨rfl, rfl, rfl⟩
  | _ :: keys, target, s => reassign_frame keys target (s.modifyClient _ _)

theorem reassign_get? : ∀ (keys : List ClientKey) (target : MonitorKey) (s : WMState) (k : ClientKey),
    (reassign s keys target).clients.get? k =
      (s.clients.get? k).map fun c => if k ∈ keys then { c with mon := some target } else c
  | [], _, s, k => by
    show s.clients.get? k = _
    cases s.clients.get? k <;> simp
  | key :: keys, target, s, k => by
    show (reassign (s.modifyClient key _) keys target).clients.get? k = _
    rw [reassign_get? keys target _ k, modifyClient_get?]
    by_cases hk : k = key
    · subst hk
      cases s.clients.get? k <;> simp
    · cases s.clients.get? k <;> simp [hk]

section Swap

variable {s : WMState} {scrolling : ScrollingMap} {left right : MonitorKey} {physical : ClientKey → Bool}
  {a b : WMMonitor} {clientsL stackL clientsR stackR : List ClientKey}

theorem exchanged_monOf
    (h : ∀ k, s'.clients.get? k = (s.clients.get? k).map (exchangeClient left right physical k)) (k : ClientKey) :
    s'.monOf k = if physical k then s.monOf k else (s.monOf k).map (otherSide left right) := by
  unfold monOf
  rw [h k]
  cases s.clients.get? k with
  | none => simp
  | some c =>
    simp only [map_some, bind_some, exchangeClient]
    split <;> rfl

/-- The clients that come over and those that stay are the clients assigned to a side. -/
theorem exchange_lists (hmon : ∀ k, s'.monOf k = if physical k then s.monOf k else (s.monOf k).map (otherSide left right))
    {own other : MonitorKey} {l l' : List ClientKey} (hside : otherSide left right other = own)
    (hl : ∀ k, k ∈ l ↔ s.monOf k = some own) (hl' : ∀ k, k ∈ l' ↔ s.monOf k = some other)
    (hn : l.Nodup) (hn' : l'.Nodup) :
    (l'.filter (!physical ·) ++ l.filter physical).Nodup ∧
      ∀ k, k ∈ l'.filter (!physical ·) ++ l.filter physical ↔ s'.monOf k = some own := by
  constructor
  · refine nodup_append.2 ⟨hn'.filter _, hn.filter _, fun x hx y hy => ?_⟩
    rintro rfl
    have h1 := (mem_filter.1 hx).2
    rw [(mem_filter.1 hy).2] at h1
    cases h1
  · intro k
    rw [mem_append, mem_filter, mem_filter, hl, hl', hmon k]
    cases hp : physical k with
    | true => simp
    | false =>
      have hback : (s.monOf k).map (otherSide left right) = some own ↔ s.monOf k = some other := by
        rw [← hside, map_eq_some_iff]
        constructor
        · rintro ⟨m, hm, he⟩
          have := congrArg (otherSide left right) he
          rw [otherSide_otherSide, otherSide_otherSide] at this
          rw [hm, this]
        · intro hm
          exact ⟨other, hm, rfl⟩
      simp [hback]

theorem exchangeClient_eq {c : WMClient} (hne : left ≠ right) : exchangeClient left right physical key c =
      if c.mon = some right ∧ physical key = false then { c with mon := some left }
      else if c.mon = some left ∧ physical key = false then { c with mon := some right } else c := by
  unfold exchangeClient
  cases hp : physical key with
  | true => simp
  | false =>
    simp only [Bool.false_eq_true, if_false, and_true]
    obtain ⟨geometry, state, mon⟩ := c
    cases mon with
    | none => simp
    | some m =>
      simp only [map_some, some.injEq, otherSide]
      by_cases hl : m = left
      · subst hl
        simp [hne]
      · by_cases hr : m = right
        · simp [hr, Ne.symm hne]
        · simp [hl, hr]

/-- The two reassignments move every client that is not physical to the other side. -/
theorem reassign_exchanges (hne : left ≠ right) (hL : ∀ k, k ∈ clientsL ↔ s.monOf k = some left)
    (hR : ∀ k, k ∈ clientsR ↔ s.monOf k = some right) {s0 : WMState} (h0 : s0.clients = s.clients) (k : ClientKey) :
    (reassign (reassign s0 (clientsL.filter (!physical ·)) right) (clientsR.filter (!physical ·)) left).clients.get? k =
      (s.clients.get? k).map (exchangeClient left right physical k) := by
  rw [reassign_get?, reassign_get?, h0]
  cases hc : s.clients.get? k with
  | none => rfl
  | some c =>
    have hmon : s.monOf k = c.mon := by rw [monOf, hc]; rfl
    have hl : k ∈ clientsL.filter (!physical ·) ↔ c.mon = some left ∧ physical k = false := by
      rw [mem_filter, hL, hmon]; simp
    have hr : k ∈ clientsR.filter (!physical ·) ↔ c.mon = some right ∧ physical k = false := by
      rw [mem_filter, hR, hmon]; simp
    simp only [map_some, some.injEq, hl, hr]
    rw [exchangeClient_eq hne]
    split_ifs <;> rfl

section

variable (hne : left ≠ right) (ha : s.monitors.get? left = some a) (hb : s.monitors.get? right = some b)
include hne ha hb

theorem exchangeMonitors_get? (m : MonitorKey) : (exchangeMonitors s left right a b).monitors.get? m =
      if m = left then some { b with num := a.num, geometry := a.geometry }
      else if m = right then some { a with num := b.num, geometry := b.geometry } else s.monitors.get? m := by
  unfold exchangeMonitors
  simp only
  rw [KeyMap.get?_modify, KeyMap.get?_modify]
  by_cases hl : m = left
  · subst hl
    rw [if_neg hne, if_pos rfl, if_pos rfl, ha]; rfl
  · by_cases hr : m = right
    · subst hr
      rw [if_pos rfl, if_neg hl, if_neg hl, if_pos rfl, hb]; rfl
    · rw [if_neg hr, if_neg hl, if_neg hl, if_neg hr]

theorem swap_exchanges (hL : MonitorLists s left clientsL stackL) (hR : MonitorLists s right clientsR stackR) :
    ∃ s' scrolling', swapMonitorContents s scrolling left right physical =
      (some (clientsL.filter (!physical ·), clientsR.filter (!physical ·)), s', scrolling') ∧
      Exchanged s scrolling left right physical a b clientsL stackL clientsR stackR s' scrolling' := by
  have hguard : ¬ (left = right || !s.monitors.contains left || !s.monitors.contains right) = true := by
    simp [KeyMap.contains, ha, hb, hne]
  rw [swapMonitorContents, if_neg hguard]
  simp only [ha, hb, hL.ownedClients_eq, hR.ownedClients_eq, hL.ownedStack_eq, hR.ownedStack_eq]
  refine ⟨_, _, rfl, ?_⟩
  have hsame : (exchangeMonitors s left right a b).clients = s.clients := rfl
  have hclients : ∀ k, (reassign (reassign (exchangeMonitors s left right a b) (clientsL.filter (!physical ·)) right)
      (clientsR.filter (!physical ·)) left).clients.get? k =
      (s.clients.get? k).map (exchangeClient left right physical k) :=
    reassign_exchanges hne hL.mem_clients hR.mem_clients hsame
  have hmonitors := exchangeMonitors_get? hne ha hb
  obtain ⟨f1, f2, f3⟩ := reassign_frame (clientsR.filter (!physical ·)) left
    (reassign (exchangeMonitors s left right a b) (clientsL.filter (!physical ·)) right)
  obtain ⟨g1, g2, g3⟩ := reassign_frame (clientsL.filter (!physical ·)) right (exchangeMonitors s left right a b)
  rw [g1] at f1
  rw [g2] at f2
  rw [g3] at f3
  generalize reassign (reassign (exchangeMonitors s left right a b) (clientsL.filter (!physical ·)) right)
    (clientsR.filter (!physical ·)) left = s1 at hclients f1 f2 f3
  have hmon := exchanged_monOf hclients
  obtain ⟨hnL, hmL⟩ := exchange_lists hmon (otherSide_right hne) hL.mem_clients hR.mem_clients hL.clientsNodup
    hR.clientsNodup
  obtain ⟨hnR, hmR⟩ := exchange_lists hmon otherSide_left hR.mem_clients hL.mem_clients hR.clientsNodup hL.clientsNodup
  obtain ⟨hnL', hmL'⟩ := exchange_lists hmon (otherSide_right hne) hL.mem_stack hR.mem_stack hL.stackNodup hR.stackNodup
  obtain ⟨hnR', hmR'⟩ := exchange_lists hmon otherSide_left hR.mem_stack hL.mem_stack hR.stackNodup hL.stackNodup
  refine ⟨hclients, ?_, ?_, ?_, ⟨?_, ?_, hnL, hnL', hmL, hmL'⟩, ⟨?_, ?_, hnR, hnR', hmR, hmR'⟩, ?_, ?_⟩
  · show s1.monitors.get? left = _
    rw [f1, hmonitors, if_pos rfl]
  · show s1.monitors.get? right = _
    rw [f1, hmonitors, if_neg (Ne.symm hne), if_pos rfl]
  · intro m hl hr
    show s1.monitors.get? m = _
    rw [f1, hmonitors, if_neg hl, if_neg hr]
  · simp [writeLists, KeyMap.get?_insert, hne]
  · simp [writeLists, KeyMap.get?_insert, hne]
  · simp [writeLists, KeyMap.get?_insert]
  · simp [writeLists, KeyMap.get?_insert]
  · intro m hl hr
    simp only [writeLists, KeyMap.get?_insert, if_neg hl, if_neg hr, f2, f3]
    exact ⟨rfl, rfl⟩
  · exact fun m tags => rekeyScrolling_get? hne scrolling m tags

end

theorem exchangeClient_twice (k : ClientKey) (c : WMClient) :
    exchangeClient left right physical k (exchangeClient left right physical k c) = c := by
  unfold exchangeClient
  split
  · rfl
  · obtain ⟨geometry, state, mon⟩ := c
    cases mon with
    | none => rfl
    | some m => simp only [map_some, otherSide_otherSide]

theorem filter_twice (own other : List ClientKey) :
    ((own.filter (!physical ·) ++ other.filter physical).filter (!physical ·) ++
      (other.filter (!physical ·) ++ own.filter physical).filter physical).filter (!physical ·) =
      own.filter (!physical ·) := by
  have hphys : ∀ l : List ClientKey, (l.filter physical).filter (!physical ·) = [] := by
    intro l
    rw [List.filter_filter, filter_eq_nil_iff]
    intro x _
    cases physical x <;> simp
  have hkeep : (own.filter (!physical ·) ++ other.filter physical).filter (!physical ·) = own.filter (!physical ·) := by
    rw [filter_append, hphys, append_nil, List.filter_filter]
    simp only [Bool.and_self]
  rw [hkeep, filter_append, hphys, append_nil, List.filter_filter]
  simp only [Bool.and_self]

end Swap

/-- The exchange undone: every client, both monitors, every strip, and the order of the clients that
move. -/
structure Restored (s : WMState) (scrolling : ScrollingMap) (left right : MonitorKey) (physical : ClientKey → Bool)
    (clientsL stackL clientsR stackR : List ClientKey) (s' : WMState) (scrolling' : ScrollingMap) : Prop where
  clients : ∀ k, s'.clients.get? k = s.clients.get? k
  monitors : ∀ m, s'.monitors.get? m = s.monitors.get? m
  strips : ∀ key, scrolling'.get? key = scrolling.get? key
  clientsL : (s'.monitorClients.get? left).map (·.filter (!physical ·)) = some (clientsL.filter (!physical ·))
  stackL : (s'.monitorStack.get? left).map (·.filter (!physical ·)) = some (stackL.filter (!physical ·))
  clientsR : (s'.monitorClients.get? right).map (·.filter (!physical ·)) = some (clientsR.filter (!physical ·))
  stackR : (s'.monitorStack.get? right).map (·.filter (!physical ·)) = some (stackR.filter (!physical ·))

section Twice

variable {s s1 s2 : WMState} {scrolling scrolling1 scrolling2 : ScrollingMap} {left right : MonitorKey}
  {physical : ClientKey → Bool} {a b : WMMonitor} {clientsL stackL clientsR stackR : List ClientKey}

theorem exchanged_twice (ha : s.monitors.get? left = some a) (hb : s.monitors.get? right = some b)
    (h1 : Exchanged s scrolling left right physical a b clientsL stackL clientsR stackR s1 scrolling1)
    (h2 : Exchanged s1 scrolling1 left right physical { b with num := a.num, geometry := a.geometry }
      { a with num := b.num, geometry := b.geometry } (clientsR.filter (!physical ·) ++ clientsL.filter physical)
      (stackR.filter (!physical ·) ++ stackL.filter physical) (clientsL.filter (!physical ·) ++ clientsR.filter physical)
      (stackL.filter (!physical ·) ++ stackR.filter physical) s2 scrolling2) :
    Restored s scrolling left right physical clientsL stackL clientsR stackR s2 scrolling2 := by
  refine ⟨fun k => ?_, fun m => ?_, fun key => ?_, ?_, ?_, ?_, ?_⟩
  · rw [h2.clients, h1.clients]
    cases s.clients.get? k with
    | none => rfl
    | some c => simp only [map_some, exchangeClient_twice]
  · by_cases hl : m = left
    · rw [hl, h2.monitorL, ha]
    · by_cases hr : m = right
      · rw [hr, h2.monitorR, hb]
      · rw [h2.otherMonitors m hl hr, h1.otherMonitors m hl hr]
  · obtain ⟨m, tags⟩ := key
    rw [h2.strips, h1.strips, otherSide_otherSide]
  · rw [h2.listsL.clientsAt, map_some, filter_twice]
  · rw [h2.listsL.stackAt, map_some, filter_twice]
  · rw [h2.listsR.clientsAt, map_some, filter_twice]
  · rw [h2.listsR.stackAt, map_some, filter_twice]

end Twice

/-- Swapping two workspaces keeps the lists consistent and moves every other client and every strip of either monitor to the
other one; a second swap undoes it, and a refused one changes nothing. -/
theorem swap_monitor_contents_self_inverse (s : WMState) (scrolling : ScrollingMap) (left right : MonitorKey)
    (physical : ClientKey → Bool) :
    ((swapMonitorContents s scrolling left right physical).1 = none →
      (swapMonitorContents s scrolling left right physical).2 = (s, scrolling)) ∧
    ∀ {a b : WMMonitor} {clientsL stackL clientsR stackR : List ClientKey}, left ≠ right →
      s.monitors.get? left = some a → s.monitors.get? right = some b →
      MonitorLists s left clientsL stackL → MonitorLists s right clientsR stackR →
      ∃ moved s1 scrolling1 moved2 s2 scrolling2,
        swapMonitorContents s scrolling left right physical = (some moved, s1, scrolling1) ∧
        Exchanged s scrolling left right physical a b clientsL stackL clientsR stackR s1 scrolling1 ∧
        (∀ k, s1.monOf k = if physical k then s.monOf k else (s.monOf k).map (otherSide left right)) ∧
        swapMonitorContents s1 scrolling1 left right physical = (some moved2, s2, scrolling2) ∧
        Restored s scrolling left right physical clientsL stackL clientsR stackR s2 scrolling2 := by
  constructor
  · unfold swapMonitorContents
    split
    · exact fun _ => rfl
    · split
      · intro h; cases h
      · exact fun _ => rfl
  · intro a b clientsL stackL clientsR stackR hne ha hb hL hR
    obtain ⟨s1, scrolling1, e1, h1⟩ := swap_exchanges hne ha hb hL hR
    obtain ⟨s2, scrolling2, e2, h2⟩ := swap_exchanges hne h1.monitorL h1.monitorR h1.listsL h1.listsR
    exact ⟨_, s1, scrolling1, _, s2, scrolling2, e1, h1, exchanged_monOf h1.clients, e2, exchanged_twice ha hb h1 h2⟩

namespace Sample

def leftMon : MonitorKey := ⟨0, 1⟩
def rightMon : MonitorKey := ⟨1, 1⟩
def bar : ClientKey := ⟨7, 1⟩
def editor : ClientKey := ⟨8, 1⟩

def plainClient (mon : MonitorKey) : WMClient where
  geometry := { floatingRect := ⟨0, 0, 640, 480⟩ }
  mon := some mon

/-- A bar and an editor on the left monitor, nothing on the right one. -/
def desktop : WMState where
  clients := ⟨[(bar, plainClient leftMon), (editor, plainClient leftMon)], by decide⟩
  monitors := ⟨[(leftMon, { WMMonitor.new with num := 0 }), (rightMon, { WMMonitor.new with num := 1 })], by decide⟩
  monitorClients := ⟨[(leftMon, [editor, bar]), (rightMon, [])], by decide⟩
  monitorStack := ⟨[(leftMon, [bar, editor]), (rightMon, [])], by decide⟩

theorem desktop_monOf (k : ClientKey) (m : MonitorKey) :
    desktop.monOf k = some m ↔ m = leftMon ∧ (k = bar ∨ k = editor) := by
  have e : desktop.monOf k = if k = bar ∨ k = editor then some leftMon else none := by
    by_cases hb : k = bar
    · subst hb; rfl
    · by_cases he : k = editor
      · subst he; rfl
      · have h : desktop.clients.get? k = none := by
          rw [KeyMap.get?_eq_none]
          intro hk
          have hk : k ∈ [bar, editor] := hk
          simp [hb, he] at hk
        simp [monOf, h, hb, he]
  rw [e]
  split
  · rename_i h
    simp [h, eq_comm]
  · rename_i h
    simp [h]

end Sample

open Sample

/-- Swapping the desktop twice puts the editor back on the left monitor. -/
theorem swap_monitor_contents_self_inverse_sample : ∃ moved s1 scrolling1 moved2 s2 scrolling2,
    swapMonitorContents Sample.desktop .empty Sample.leftMon Sample.rightMon (· = Sample.bar) =
      (some moved, s1, scrolling1) ∧
    s1.monOf Sample.editor = some Sample.rightMon ∧
    swapMonitorContents s1 scrolling1 Sample.leftMon Sample.rightMon (· = Sample.bar) = (some moved2, s2, scrolling2) ∧
    s2.clients.get? Sample.editor = Sample.desktop.clients.get? Sample.editor := by
  have hL : MonitorLists desktop leftMon [editor, Sample.bar] [Sample.bar, editor] := by
    refine ⟨rfl, rfl, by decide, by decide, fun k => ?_, fun k => ?_⟩
    · rw [desktop_monOf]; simp [or_comm]
    · rw [desktop_monOf]; simp
  have hR : MonitorLists desktop rightMon [] [] := by
    have hne : rightMon ≠ leftMon := by decide
    refine ⟨rfl, rfl, nodup_nil, nodup_nil, fun k => ?_, fun k => ?_⟩ <;>
      rw [desktop_monOf] <;> simp [hne]
  obtain ⟨moved, s1, scrolling1, moved2, s2, scrolling2, e1, -, hmon, e2, hback⟩ :=
    (swap_monitor_contents_self_inverse desktop .empty leftMon rightMon (· = Sample.bar)).2
      (by decide) rfl rfl hL hR
  exact ⟨moved, s1, scrolling1, moved2, s2, scrolling2, e1, hmon editor, e2, hback.clients _⟩

end Jwm
