/-
The memory of where windows were closed (`jwm/closed_placement.rs`): the last placement of the identities closed last, in a hash map
with a number per close, saved after every close and loaded when the window manager starts. Between any two steps the map may list
its entries in another order.
-/
import Jwm.Data.Recency
import Jwm.Data.StableSort
import Mathlib.Data.List.MinMax

namespace Jwm

open List KeyMap Bool

def maxRememberedPlacements : Nat := 256

def closedPlacementVersion : Nat := 2

def closedPlacementMinSupportedVersion : Nat := 1

def maxClosedPlacementBytes : Nat := 1024 * 1024

def maxIdentityFieldBytes : Nat := 65536

/-- `u64::saturating_add(1)`. -/
def nextSeqAfter (seq : Nat) : Nat := min (seq + 1) (2 ^ 64 - 1)

structure PlacementIdentity where
  «class» : String
  «instance» : String
deriving DecidableEq

def PlacementIdentity.new («class» «instance» : String) : Option PlacementIdentity :=
  if «class» == "" && «instance» == "" then none else some { «class», «instance» }

structure RememberedPlacement where
  monitorNum : Int
  connector : Option String
  tags : BitVec 32
  closedSeq : Nat
deriving DecidableEq

structure ClosedPlacementMemory where
  byIdentity : KeyMap PlacementIdentity RememberedPlacement
  nextSeq : Nat

structure ClosedPlacementEntry where
  «class» : String
  «instance» : String
  monitorNum : Int
  connector : Option String
  tags : BitVec 32
  seq : Nat
deriving DecidableEq

def ClosedPlacementEntry.identity (entry : ClosedPlacementEntry) : PlacementIdentity := ⟨entry.class, entry.instance⟩

structure ClosedPlacementSnapshot where
  version : Nat
  placements : List ClosedPlacementEntry
deriving DecidableEq

/-! ## The snapshot -/

def entryOfPlacement (e : PlacementIdentity × RememberedPlacement) : ClosedPlacementEntry where
  «class» := e.1.class
  «instance» := e.1.instance
  monitorNum := e.2.monitorNum
  connector := e.2.connector
  tags := e.2.tags
  seq := e.2.closedSeq

namespace ClosedPlacementSnapshot

def fromMemory (memory : ClosedPlacementMemory) : ClosedPlacementSnapshot where
  version := closedPlacementVersion
  placements := sortByKey ClosedPlacementEntry.seq (memory.byIdentity.entries.map entryOfPlacement)

/-- The loop of `validate`, with the identities seen so far. -/
def validateEntries : Nat → List PlacementIdentity → List ClosedPlacementEntry → Except String Unit
  | _, _, [] => .ok ()
  | index, seen, entry :: rest =>
    if entry.class == "" && entry.instance == "" then .error s!"closed-placement entry {index} has an empty identity"
    else if maxIdentityFieldBytes < entry.class.utf8ByteSize || maxIdentityFieldBytes < entry.instance.utf8ByteSize then
      .error s!"closed-placement entry {index} has oversized text fields"
    else if entry.connector.any fun connector => decide (maxIdentityFieldBytes < connector.utf8ByteSize) then
      .error s!"closed-placement entry {index} has an oversized connector"
    else if entry.tags == 0 then .error s!"closed-placement entry {index} has an empty tag mask"
    else if seen.contains entry.identity then .error s!"closed-placement entry {index} duplicates an earlier identity"
    else validateEntries (index + 1) (entry.identity :: seen) rest

def validate (snapshot : ClosedPlacementSnapshot) : Except String Unit :=
  let version := snapshot.version
  let count := snapshot.placements.length
  if snapshot.version < closedPlacementMinSupportedVersion || closedPlacementVersion < snapshot.version then
    .error s!"unsupported closed-placement version {version}"
  else if maxRememberedPlacements < snapshot.placements.length then
    .error s!"closed-placement snapshot has {count} entries; limit is {maxRememberedPlacements}"
  else validateEntries 0 [] snapshot.placements

/-- The placement of an entry; an empty connector is none. -/
def placementOfEntry (entry : ClosedPlacementEntry) : RememberedPlacement where
  monitorNum := entry.monitorNum
  connector := entry.connector.filter (· != "")
  tags := entry.tags
  closedSeq := entry.seq

def intoMemory (snapshot : ClosedPlacementSnapshot) : Except String ClosedPlacementMemory := do
  snapshot.validate
  return {
    byIdentity := snapshot.placements.foldl (fun m entry => m.insert entry.identity (placementOfEntry entry)) .empty
    nextSeq := snapshot.placements.foldl (fun next entry => max next (nextSeqAfter entry.seq)) 0 }

end ClosedPlacementSnapshot

/-! ## The file -/

/-- `serde_json` on a snapshot. -/
structure PlacementJson where
  toJson : ClosedPlacementSnapshot → Except String String
  fromJson : String → Except String ClosedPlacementSnapshot

/-- What the crate is for: a snapshot that is written is read back. -/
def PlacementJson.RoundTrips (json : PlacementJson) : Prop :=
  ∀ snapshot, ∃ text, json.toJson snapshot = .ok text ∧ json.fromJson text = .ok snapshot

namespace ClosedPlacementMemory

/-- `Default::default`. -/
def initial : ClosedPlacementMemory where
  byIdentity := .empty
  nextSeq := 0

/-- `atomic_write_closed_placement` on a file that can be replaced. -/
def atomicWrite (contents : String) : Except String String :=
  if maxClosedPlacementBytes < contents.utf8ByteSize then .error "closed-placement snapshot exceeds the 1 MiB limit" else .ok contents

/-- `save_to_path`: the file afterwards; a save that fails leaves it alone. -/
def saveToPath (json : PlacementJson) (memory : ClosedPlacementMemory) (file : Option String) : Option String :=
  match json.toJson (.fromMemory memory) with
  | .error _ => file
  | .ok text =>
    match atomicWrite text with
    | .error _ => file
    | .ok contents => some contents

/-- `load_closed_placement_snapshot` on a file that is there. -/
def loadSnapshot (json : PlacementJson) (contents : String) : Except String ClosedPlacementSnapshot := do
  if maxClosedPlacementBytes < contents.utf8ByteSize then throw "closed-placement file exceeds the 1 MiB limit"
  let snapshot ← json.fromJson contents
  snapshot.validate
  return snapshot

/-- `load_from_path`: what cannot be loaded leaves the memory empty. -/
def loadFromPath (json : PlacementJson) (file : Option String) : ClosedPlacementMemory :=
  match file with
  | none => initial
  | some contents =>
    match loadSnapshot json contents with
    | .error _ => initial
    | .ok snapshot =>
      match snapshot.intoMemory with
      | .error _ => initial
      | .ok memory => memory

/-! ## Closing windows -/

/-- The key to drop, when a new identity finds the map full. -/
def evict (memory : ClosedPlacementMemory) (identity : PlacementIdentity) : KeyMap PlacementIdentity RememberedPlacement :=
  if !memory.byIdentity.contains identity && decide (maxRememberedPlacements ≤ memory.byIdentity.entries.length) then
    match memory.byIdentity.entries.argmin (·.2.closedSeq) with
    | some oldest => memory.byIdentity.remove oldest.1
    | none => memory.byIdentity
  else memory.byIdentity

def remember (memory : ClosedPlacementMemory) (identity : PlacementIdentity) (monitorNum : Int) (connector : Option String)
    (tags : BitVec 32) : ClosedPlacementMemory × Bool :=
  if tags == 0 then (memory, false)
  else
    ({ byIdentity := (memory.evict identity).insert identity
        { monitorNum, connector := connector.filter (· != ""), tags, closedSeq := memory.nextSeq }
       nextSeq := nextSeqAfter memory.nextSeq }, true)

def lookup (memory : ClosedPlacementMemory) (identity : PlacementIdentity) : Option RememberedPlacement :=
  memory.byIdentity.get? identity

def clear (_memory : ClosedPlacementMemory) : ClosedPlacementMemory where
  byIdentity := .empty
  nextSeq := 0

end ClosedPlacementMemory

/-! ## Runs -/

inductive PlacementOp where
  | remember («class» «instance» : String) (monitorNum : Int) (connector : Option String) (tags : BitVec 32)
  | clear
  /-- A save over what the file held, and the load of a next process. -/
  | saveThenLoad (before : Option String)

namespace PlacementOp

def apply (json : PlacementJson) (memory : ClosedPlacementMemory) : PlacementOp → ClosedPlacementMemory
  | .remember «class» «instance» monitorNum connector tags =>
    match PlacementIdentity.new «class» «instance» with
    | none => memory
    | some identity => (memory.remember identity monitorNum connector tags).1
  | .clear => memory.clear
  | .saveThenLoad before => .loadFromPath json (memory.saveToPath json before)

def keepsHistory : PlacementOp → Bool
  | .saveThenLoad _ => false
  | _ => true

end PlacementOp

/-- The memory may list its entries in another order. -/
structure ClosedPlacementMemory.Same (m m' : ClosedPlacementMemory) : Prop where
  get? : ∀ identity, m.byIdentity.get? identity = m'.byIdentity.get? identity
  nextSeq : m.nextSeq = m'.nextSeq

/-- The memory after some steps, newest first, each of which is allowed in the memory it is made in. -/
inductive PlacementRun (json : PlacementJson) (allowed : PlacementOp → ClosedPlacementMemory → Prop) :
    List PlacementOp → ClosedPlacementMemory → Prop where
  | start : PlacementRun json allowed [] .initial
  | step {ops : List PlacementOp} {m m' : ClosedPlacementMemory} (op : PlacementOp) : PlacementRun json allowed ops m → m.Same m' →
      allowed op m' → PlacementRun json allowed (op :: ops) (op.apply json m')

def PlacementOp.Storable (json : PlacementJson) (op : PlacementOp) (m : ClosedPlacementMemory) : Prop :=
  op.keepsHistory = false → ∀ text, json.toJson (.fromMemory m) = .ok text → text.utf8ByteSize ≤ maxClosedPlacementBytes

/-- The texts of an entry are no longer than the loader takes. -/
structure FieldsFit (identity : PlacementIdentity) (placement : RememberedPlacement) : Prop where
  «class» : identity.class.utf8ByteSize ≤ maxIdentityFieldBytes
  «instance» : identity.instance.utf8ByteSize ≤ maxIdentityFieldBytes
  connector : ∀ connector, placement.connector = some connector → connector.utf8ByteSize ≤ maxIdentityFieldBytes

def PlacementOp.Loadable (op : PlacementOp) (m : ClosedPlacementMemory) : Prop :=
  op.keepsHistory = false → ∀ identity placement, m.lookup identity = some placement → FieldsFit identity placement

/-! ## The closes of a run -/

/-- The placements of the windows closed since the last clear, newest first; one without a tag is none. -/
def closes : List PlacementOp → List (PlacementIdentity × RememberedPlacement)
  | [] => []
  | .remember «class» «instance» monitorNum connector tags :: ops =>
    match PlacementIdentity.new «class» «instance» with
    | none => closes ops
    | some identity =>
      if tags == 0 then closes ops
      else (identity, { monitorNum, connector := connector.filter (· != ""), tags, closedSeq := (closes ops).length }) :: closes ops
  | .clear :: _ => []
  | .saveThenLoad _ :: ops => closes ops

/-- An entry as `remember` makes it. -/
structure WellMade (e : PlacementIdentity × RememberedPlacement) : Prop where
  named : (e.1.class == "" && e.1.instance == "") = false
  tagged : e.2.tags ≠ 0
  connector : e.2.connector.filter (· != "") = e.2.connector

/-- Closes in the order of their numbers. -/
structure InCloseOrder (history : List (PlacementIdentity × RememberedPlacement)) : Prop where
  wellMade : ∀ e ∈ history, WellMade e
  below : ∀ e ∈ history, e.2.closedSeq < history.length
  descending : history.Pairwise fun a b => b.2.closedSeq < a.2.closedSeq
  newest : ∀ e, history.head? = some e → e.2.closedSeq + 1 = history.length

theorem placementIdentity_new {cls inst : String} {identity : PlacementIdentity} (h : PlacementIdentity.new cls inst = some identity) :
    identity = ⟨cls, inst⟩ ∧ (cls == "" && inst == "") = false := by
  unfold PlacementIdentity.new at h
  split at h
  · cases h
  · rename_i hne
    exact ⟨(Option.some.inj h).symm, eq_false_iff.2 hne⟩

theorem inCloseOrder_nil : InCloseOrder [] := by
  constructor
  · exact fun e he => absurd he not_mem_nil
  · exact fun e he => absurd he not_mem_nil
  · exact List.Pairwise.nil
  · rintro e ⟨⟩

theorem InCloseOrder.cons {history : List (PlacementIdentity × RememberedPlacement)} {identity : PlacementIdentity}
    {placement : RememberedPlacement} (h : InCloseOrder history) (hmade : WellMade (identity, placement))
    (hseq : placement.closedSeq = history.length) : InCloseOrder ((identity, placement) :: history) := by
  constructor
  · rintro e (_ | ⟨_, he⟩)
    · exact hmade
    · exact h.wellMade e he
  · rintro e (_ | ⟨_, he⟩)
    · rw [length_cons, hseq]
      exact Nat.lt_succ_self _
    · exact (h.below e he).trans (Nat.lt_succ_self _)
  · refine pairwise_cons.2 ⟨fun e he => ?_, h.descending⟩
    rw [hseq]
    exact h.below e he
  · rintro e ⟨⟩
    rw [length_cons, hseq]

theorem inCloseOrder_closes : ∀ ops, InCloseOrder (closes ops)
  | [] => inCloseOrder_nil
  | .remember cls inst monitorNum connector tags :: ops => by
    rw [closes]
    split
    · exact inCloseOrder_closes ops
    · rename_i identity hidentity
      obtain ⟨rfl, hnamed⟩ := placementIdentity_new hidentity
      split
      · exact inCloseOrder_closes ops
      · rename_i htags
        refine (inCloseOrder_closes ops).cons ?_ rfl
        constructor
        · exact hnamed
        · exact fun h => htags (beq_iff_eq.2 h)
        · rw [Option.filter_filter]
          simp
  | .clear :: _ => inCloseOrder_nil
  | .saveThenLoad _ :: ops => inCloseOrder_closes ops

theorem closes_filter : ∀ ops, closes (ops.filter (·.keepsHistory)) = closes ops
  | [] => rfl
  | .remember cls inst monitorNum connector tags :: ops => by
    rw [filter_cons_of_pos rfl, closes, closes, closes_filter ops]
  | .clear :: _ => rfl
  | .saveThenLoad _ :: ops => closes_filter ops

/-! ## One step -/

/-- The memory holds the identities closed last. -/
structure Remembers (history : List (PlacementIdentity × RememberedPlacement)) (m : ClosedPlacementMemory) : Prop where
  get? : ∀ identity, m.byIdentity.get? identity = (recentMap maxRememberedPlacements history).get? identity
  nextSeq : m.nextSeq = history.length

section

variable {history : List (PlacementIdentity × RememberedPlacement)} {m m' : ClosedPlacementMemory} {identity : PlacementIdentity}

theorem remembers_initial : Remembers [] .initial := by
  constructor
  · exact fun _ => rfl
  · rfl

theorem Remembers.same (h : Remembers history m) (hsame : m.Same m') : Remembers history m' := by
  constructor
  · exact fun identity => (hsame.get? identity).symm.trans (h.get? identity)
  · exact hsame.nextSeq.symm.trans h.nextSeq

theorem Remembers.perm (h : Remembers history m) : m.byIdentity.entries.Perm (recent maxRememberedPlacements history) :=
  entries_perm h.get?

variable {placement : RememberedPlacement}

open ClosedPlacementMemory

theorem Remembers.mem_iff (h : Remembers history m) :
    m.lookup identity = some placement ↔ (identity, placement) ∈ recent maxRememberedPlacements history := by
  unfold ClosedPlacementMemory.lookup
  rw [h.get?, get?_eq_some]
  rfl

theorem contains_iff (h : Remembers history m) :
    m.byIdentity.contains identity = true ↔ identity ∈ (recent maxRememberedPlacements history).map Prod.fst := by
  unfold KeyMap.contains
  rw [Option.isSome_iff_exists, ← KeyMap.mem_keys]
  exact (h.perm.map Prod.fst).mem_iff

theorem argmin_closedSeq (hordered : InCloseOrder history) (h : Remembers history m) :
    m.byIdentity.entries.argmin (·.2.closedSeq) = (recent maxRememberedPlacements history).getLast? := by
  have hdescending : (recent maxRememberedPlacements history).Pairwise fun a b => b.2.closedSeq < a.2.closedSeq :=
    hordered.descending.sublist (recent_sublist _ _)
  generalize hargmin : m.byIdentity.entries.argmin (·.2.closedSeq) = found
  rcases found with _ | oldest
  · rw [argmin_eq_none] at hargmin
    have hnil : recent maxRememberedPlacements history = [] := by
      have hperm := h.perm
      rw [hargmin] at hperm
      exact hperm.symm.eq_nil
    rw [hnil, getLast?_nil]
  · have hmem : oldest ∈ recent maxRememberedPlacements history := h.perm.mem_iff.1 (argmin_mem hargmin)
    obtain ⟨before, rest, hlist⟩ := append_of_mem hmem
    rcases eq_nil_or_concat rest with rfl | ⟨middle, last, rfl⟩
    · rw [hlist, getLast?_concat]
    · -- a later entry would have a smaller number
      have hlast : last ∈ m.byIdentity.entries := by
        rw [h.perm.mem_iff, hlist]
        simp
      have hle : oldest.2.closedSeq ≤ last.2.closedSeq :=
        le_of_mem_argmin (f := fun e : PlacementIdentity × RememberedPlacement => e.2.closedSeq) hlast hargmin
      rw [hlist, pairwise_append, pairwise_cons] at hdescending
      have hlt := hdescending.2.1.1 last (by simp)
      omega

theorem get?_remember_room (h : Remembers history m)
    (hroom : ¬ (!m.byIdentity.contains identity && decide (maxRememberedPlacements ≤ m.byIdentity.entries.length)) = true)
    (other : PlacementIdentity) :
    ((m.evict identity).insert identity placement).get? other =
      (recentMap maxRememberedPlacements ((identity, placement) :: history)).get? other := by
  have hlist : recent maxRememberedPlacements ((identity, placement) :: history) =
      (identity, placement) :: (recent maxRememberedPlacements history).filter fun e => e.1 ≠ identity := by
    refine recent_cons_room 255 ?_
    rw [h.perm.length_eq, and_eq_true, decide_eq_true_eq, not_and_or, not_eq_true', not_eq_false, contains_iff h] at hroom
    rcases hroom with hheld | hroom
    · exact .inl hheld
    · exact .inr (Nat.le_of_lt_succ (Nat.lt_of_not_le hroom))
  unfold evict
  rw [if_neg hroom, get?_insert, h.get?, get?_of_entries_cons (recentMap maxRememberedPlacements history)
    (recentMap maxRememberedPlacements ((identity, placement) :: history)) (identity, placement) hlist]

theorem get?_remember_full (hordered : InCloseOrder history) (h : Remembers history m)
    (hfull : (!m.byIdentity.contains identity && decide (maxRememberedPlacements ≤ m.byIdentity.entries.length)) = true)
    (other : PlacementIdentity) :
    ((m.evict identity).insert identity placement).get? other =
      (recentMap maxRememberedPlacements ((identity, placement) :: history)).get? other := by
  obtain ⟨hnew, hlength⟩ := and_eq_true_iff.1 hfull
  rw [not_eq_true', eq_false_iff, Ne, contains_iff h] at hnew
  rw [decide_eq_true_eq, h.perm.length_eq] at hlength
  have hdropped := recent_cons_full 255 (e := (identity, placement)) hnew hlength
  obtain ⟨oldest, holdest⟩ : ∃ oldest, (recent maxRememberedPlacements history).getLast? = some oldest := by
    rw [← Option.isSome_iff_exists, getLast?_isSome]
    rintro hnil
    rw [hnil] at hlength
    exact absurd hlength (by decide)
  have hkept : (recent maxRememberedPlacements history).dropLast =
      ((recentMap maxRememberedPlacements history).remove oldest.1).entries.filter fun e => e.1 ≠ identity := by
    rw [filter_key_eq_self]
    · rw [dropLast_eq_filter_key (recent_nodup _ _) holdest]
      congr 1
      funext e
      rw [Bool.eq_iff_iff]
      simp
    · exact fun hmem => hnew (((filter_sublist).map Prod.fst).subset hmem)
  unfold evict
  rw [if_pos hfull, argmin_closedSeq hordered h, holdest]
  rw [get?_insert, get?_remove, h.get?,
    get?_of_entries_cons ((recentMap maxRememberedPlacements history).remove oldest.1)
      (recentMap maxRememberedPlacements ((identity, placement) :: history)) (identity, placement) (by rw [← hkept]; exact hdropped),
    get?_remove]

theorem remember_untagged (m : ClosedPlacementMemory) (identity : PlacementIdentity) (monitorNum : Int) (connector : Option String)
    {tags : BitVec 32} (htags : (tags == 0) = true) : (m.remember identity monitorNum connector tags).1 = m := by
  unfold remember
  rw [if_pos htags]

theorem remember_spec (hordered : InCloseOrder history) (h : Remembers history m) (hfew : history.length + 1 < 2 ^ 64 - 1)
    (monitorNum : Int) (connector : Option String) {tags : BitVec 32} (htags : (tags == 0) = false) :
    Remembers ((identity, { monitorNum, connector := connector.filter (· != ""), tags, closedSeq := history.length }) :: history)
      (m.remember identity monitorNum connector tags).1 := by
  unfold remember
  rw [if_neg (eq_false_iff.1 htags), h.nextSeq]
  constructor
  · intro other
    by_cases hfull : (!m.byIdentity.contains identity && decide (maxRememberedPlacements ≤ m.byIdentity.entries.length)) = true
    · exact get?_remember_full hordered h hfull other
    · exact get?_remember_room h hfull other
  · unfold nextSeqAfter
    rw [length_cons, Nat.min_eq_left hfew.le]

end

end Jwm
