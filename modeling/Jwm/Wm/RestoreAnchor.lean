/-
Restore anchors (`jwm/maximize.rs`). Maximize moves a tile it promotes to the floating tail of its monitor's client list and
records the window it preceded; leaving maximize puts it back in front of that window. Anchors are re-pointed when the window
they name leaves the list.
-/
import Jwm.Core.Models
import Jwm.Data.Order

namespace Jwm

open List

/-! ## Where a promoted window rests -/

/-- The loop of `resting_anchor`: `rounds` iterations left, `anchor` the next link of the chain. -/
def restingAnchorLoop (s : WMState) (list : List ClientKey) (clientKey : ClientKey) :
    Nat → Option ClientKey → Option ClientKey
  | 0, _ => none
  | rounds + 1, anchor =>
    match anchor.filter fun key => key != clientKey && list.contains key with
    | none => none
    | some key =>
      match s.clients.get? key with
      | none => none
      | some client =>
        if !client.state.isFloating then some key
        else if !client.state.maximizeRestoreTiled then none
        else restingAnchorLoop s list clientKey rounds client.state.maximizeRestoreAnchor

/-- The tile in `list` that a promoted `clientKey` rests in front of, given its anchor. -/
def restingAnchor (s : WMState) (list : List ClientKey) (clientKey : ClientKey) (anchor : Option ClientKey) :
    Option ClientKey :=
  restingAnchorLoop s list clientKey list.length anchor

/-- The anchor of a promoted client; `none` for any other client. -/
def promotedAnchor (s : WMState) (key : ClientKey) : Option (Option ClientKey) :=
  ((s.clients.get? key).filter (·.state.promoted)).map (·.state.maximizeRestoreAnchor)

/-- The promoted clients of `clients`, other than `clientKey`, that rest in front of `tile`. -/
def restingBeforeTile (s : WMState) (clients : List ClientKey) (clientKey : ClientKey) (tile : Option ClientKey) :
    List ClientKey :=
  clients.filter fun key =>
    key != clientKey && (promotedAnchor s key).any fun anchor => restingAnchor s clients key anchor == tile

/-- The anchor `clientKey` records when maximize promotes it: the first tile after it or, while
windows promoted from between the two are out, the first of those. -/
def restoreAnchorAfter (s : WMState) (mon : MonitorKey) (clientKey : ClientKey) : Option ClientKey :=
  match s.monitorClients.get? mon with
  | none => none
  | some clients =>
    match clients.idxOf? clientKey with
    | none => none
    | some position =>
      let tile := (clients.drop (position + 1)).find? fun key => (s.clients.get? key).any (!·.state.isFloating)
      let resting := restingBeforeTile s clients clientKey tile
      (resting.find? fun key => !resting.any fun other => promotedAnchor s other == some (some key)).or tile

/-! ## Moving within the list -/

/-- `retile_before_anchor`: `none` is the source's `false`, with nothing moved. -/
def retileBeforeAnchor (s : WMState) (mon : MonitorKey) (clientKey : ClientKey) (anchor : Option ClientKey) :
    Option WMState :=
  match s.monitorClients.get? mon with
  | none => none
  | some clients =>
    match restingAnchor s clients clientKey anchor with
    | none => none
    | some target =>
      match clients.idxOf? clientKey, clients.idxOf? target with
      | some src, some dst =>
        some (s.setList mon ((clients.eraseIdx src).insertIdx (if src < dst then dst - 1 else dst) clientKey))
      | _, _ => none

variable {s : WMState} {list : List ClientKey} {key t : ClientKey} {mon : MonitorKey} {anchor : Option ClientKey}

theorem restingAnchorLoop_some :
    ∀ {rounds : Nat} {anchor : Option ClientKey}, restingAnchorLoop s list key rounds anchor = some t →
      t ≠ key ∧ t ∈ list ∧ s.isClientFloating t = false
  | 0, _, h => by cases h
  | rounds + 1, anchor, h => by
    rw [restingAnchorLoop] at h
    split at h
    · cases h
    · rename_i k hk
      obtain ⟨-, hk⟩ := Option.filter_eq_some_iff.1 hk
      simp only [Bool.and_eq_true, bne_iff_ne, contains_iff_mem] at hk
      split at h
      · cases h
      · rename_i client hc
        split_ifs at h with hf ht
        · cases h
          refine ⟨hk.1, hk.2, ?_⟩
          unfold WMState.isClientFloating
          rw [hc]
          simpa using hf
        · exact restingAnchorLoop_some h

theorem retile_eq {a b : List ClientKey} (hl : s.monitorClients.get? mon = some list)
    (ht : restingAnchor s list key anchor = some t) (hk : key ∈ list) (he : list.erase key = a ++ t :: b) (ha : t ∉ a) :
    retileBeforeAnchor s mon key anchor = some (s.setList mon (a ++ key :: t :: b)) := by
  obtain ⟨hne, htl, -⟩ := restingAnchorLoop_some ht
  have idx : ∀ {k : ClientKey}, k ∈ list → list.idxOf? k = some (list.idxOf k) := by
    intro k hk
    cases h : list.idxOf? k with
    | none => rw [idxOf?_eq_none_iff] at h; exact absurd hk h
    | some i => rw [idxOf_eq_getD_idxOf?, h]; rfl
  have herase : list.eraseIdx (list.idxOf key) = list.erase key := by rw [erase_eq_eraseIdx, idx hk]
  have hpos : (if list.idxOf key < list.idxOf t then list.idxOf t - 1 else list.idxOf t) = a.length := by
    rw [← idxOf_erase_ne hk hne, he, idxOf_append, if_neg ha, idxOf_cons_self, Nat.zero_add]
  simp only [retileBeforeAnchor, hl, ht, idx hk, idx htl, herase, hpos, he, insertIdx_append_length]

/-- `retile_before_anchor` either reports `false` or moves the client right in front of a tile. -/
theorem retile_some {s' : WMState} (h : retileBeforeAnchor s mon key anchor = some s') :
    ∃ list a t b, s.monitorClients.get? mon = some list ∧ key ∈ list ∧ s.isClientFloating t = false ∧
      list.erase key = a ++ t :: b ∧ s' = s.setList mon (a ++ key :: t :: b) := by
  cases hl : s.monitorClients.get? mon with
  | none => rw [retileBeforeAnchor, hl] at h; cases h
  | some list =>
    cases ht : restingAnchor s list key anchor with
    | none => rw [retileBeforeAnchor, hl] at h; simp only [ht] at h; cases h
    | some t =>
      obtain ⟨hne, htl, hf⟩ := restingAnchorLoop_some ht
      by_cases hk : key ∈ list
      · obtain ⟨a, b, he, ha⟩ := eq_append_cons_of_mem ((mem_erase_of_ne hne).2 htl)
        exact ⟨list, a, t, b, rfl, hk, hf, he, by rw [retile_eq hl ht hk he ha] at h; exact (Option.some.inj h).symm⟩
      · have hp : list.idxOf? key = none := idxOf?_eq_none_iff.2 hk
        rw [retileBeforeAnchor, hl] at h
        simp only [ht, hp] at h
        cases h

/-- The clients of `mon`'s list whose anchor names `clientKey`. -/
def anchoredTo (s : WMState) (mon : MonitorKey) (clientKey : ClientKey) : List ClientKey :=
  ((s.monitorClients.get? mon).getD []).filter fun key =>
    key != clientKey && (s.clients.get? key).any fun client => client.state.maximizeRestoreAnchor == some clientKey

/-- What a departing client hands on to them: a promoted one its own anchor, a tile the anchor a
promotion of it would record, any other floating one nothing. -/
def spliceSuccessor (s : WMState) (mon : MonitorKey) (clientKey : ClientKey) (departing : WMClient) : Option ClientKey :=
  if departing.state.promoted then departing.state.maximizeRestoreAnchor
  else if departing.state.isFloating then none
  else restoreAnchorAfter s mon clientKey

def setRestoreAnchor (client : WMClient) (anchor : Option ClientKey) : WMClient :=
  { client with state := { client.state with maximizeRestoreAnchor := anchor } }

/-- `splice_restore_anchors`: re-point every anchor on `mon` that names `clientKey`. -/
def spliceRestoreAnchors (s : WMState) (mon : MonitorKey) (clientKey : ClientKey) : WMState :=
  match s.clients.get? clientKey with
  | none => s
  | some departing =>
    let anchored := anchoredTo s mon clientKey
    if anchored.isEmpty then s
    else
      let successor := spliceSuccessor s mon clientKey departing
      anchored.foldl (fun s key => s.modifyClient key fun client =>
        setRestoreAnchor client (successor.filter fun anchor => anchor != key)) s

theorem foldl_setRestoreAnchor (g : ClientKey → Option ClientKey) : ∀ (keys : List ClientKey) (s : WMState),
      (keys.foldl (fun s key => s.modifyClient key fun client => setRestoreAnchor client (g key)) s) =
        { s with clients :=
          (keys.foldl (fun s key => s.modifyClient key fun client => setRestoreAnchor client (g key)) s).clients } ∧
      ∀ x, (keys.foldl (fun s key => s.modifyClient key fun client => setRestoreAnchor client (g key)) s).clients.get? x =
        if x ∈ keys then (s.clients.get? x).map (setRestoreAnchor · (g x)) else s.clients.get? x
  | [], s => ⟨rfl, fun x => by simp⟩
  | key :: keys, s => by
    obtain ⟨h1, h2⟩ := foldl_setRestoreAnchor g keys (s.modifyClient key fun client => setRestoreAnchor client (g key))
    refine ⟨h1, fun x => ?_⟩
    rw [foldl_cons, h2 x, WMState.modifyClient_get?]
    by_cases hx : x = key <;> by_cases hm : x ∈ keys
    · subst hx
      simp only [hm, if_true, mem_cons, or_true, Option.map_map]
      cases s.clients.get? x <;> rfl
    · subst hx; simp [hm]
    · simp [hx, hm]
    · simp [hx, hm]

theorem splice_spec (s : WMState) (mon : MonitorKey) (key : ClientKey) :
    (spliceRestoreAnchors s mon key) = { s with clients := (spliceRestoreAnchors s mon key).clients } ∧
    ∀ x, (spliceRestoreAnchors s mon key).clients.get? x =
      match s.clients.get? key with
      | none => s.clients.get? x
      | some departing =>
        if x ∈ anchoredTo s mon key then
          (s.clients.get? x).map
            (setRestoreAnchor · ((spliceSuccessor s mon key departing).filter fun anchor => anchor != x))
        else s.clients.get? x := by
  unfold spliceRestoreAnchors
  cases hd : s.clients.get? key with
  | none => exact ⟨rfl, fun _ => rfl⟩
  | some departing =>
    simp only
    split
    · rename_i he
      rw [List.isEmpty_iff] at he
      exact ⟨rfl, fun x => by simp [he]⟩
    · exact foldl_setRestoreAnchor (fun x => (spliceSuccessor s mon key departing).filter fun anchor => anchor != x) _ _

/-- `move_to_front`: a tile goes to the head of the list, a floating window to the head of the
floating tail. -/
def moveToFront (s : WMState) (clientKey : ClientKey) : WMState :=
  match s.clients.get? clientKey with
  | none => s
  | some client =>
    match client.mon with
    | none => s
    | some mon =>
      let floating := client.state.isFloating
      let s := if !floating then spliceRestoreAnchors s mon clientKey else s
      match s.monitorClients.get? mon with
      | none => s
      | some clients =>
        let clients := match clients.idxOf? clientKey with
          | some position => clients.eraseIdx position
          | none => clients
        let index := if floating then (clients.findIdx? s.isClientFloating).getD clients.length else 0
        s.setList mon (clients.insertIdx index clientKey)

/-! ## The resting order -/

/-- The `promoted` test of `resting_order`. -/
def restingPromoted (s : WMState) (key : ClientKey) : Bool :=
  (s.clients.get? key).any fun c =>
    c.state.maximizeRestoreTiled && c.state.isFloating && c.state.maximizedAxes.any

/-- `place`: insert `key` before `before`, or at the end of the tiled group. -/
def placeBefore (s : WMState) (promotedKeys order : List ClientKey) (key : ClientKey) (before : Option ClientKey) :
    List ClientKey :=
  let index := ((before.bind fun before => order.idxOf? before).or
    (order.findIdx? fun other => !promotedKeys.contains other && s.isClientFloating other)).getD order.length
  order.insertIdx index key

/-- One pass over the pending windows: those placed join the order, the rest stay pending. -/
def restingPass (s : WMState) (list promotedKeys : List ClientKey) :
    List ClientKey → List ClientKey → List ClientKey × List ClientKey
  | [], order => ([], order)
  | key :: pending, order =>
    let anchor := (s.clients.get? key).bind (·.state.maximizeRestoreAnchor)
    let place target := restingPass s list promotedKeys pending (placeBefore s promotedKeys order key target)
    match anchor.filter fun anchor => anchor != key && promotedKeys.contains anchor with
    | some anchor =>
      -- an anchor out of the layout itself: wait until it is back
      if !order.contains anchor then
        let rest := restingPass s list promotedKeys pending order
        (key :: rest.1, rest.2)
      else place (some anchor)
    | none => place (restingAnchor s list key anchor)

/-- The outer loop of `resting_order`; as many rounds as there are promoted windows are enough. -/
def restingLoop (s : WMState) (list promotedKeys : List ClientKey) :
    Nat → List ClientKey → List ClientKey → List ClientKey
  | 0, _, order => order
  | rounds + 1, pending, order =>
    if pending.isEmpty then order
    else
      let pass := restingPass s list promotedKeys pending order
      if pass.1.length = pending.length then
        -- anchors naming each other in a cycle: no tile to rest before
        pass.1.foldl (fun order key => placeBefore s promotedKeys order key none) pass.2
      else restingLoop s list promotedKeys rounds pass.1 pass.2

/-- `list` in the order its windows rest in once nothing is maximized. -/
def restingOrder (s : WMState) (list : List ClientKey) : List ClientKey :=
  let promotedKeys := list.filter (restingPromoted s)
  let order := list.filter fun key => !restingPromoted s key
  restingLoop s list promotedKeys promotedKeys.length promotedKeys order

end Jwm
