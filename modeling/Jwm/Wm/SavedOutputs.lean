/-
The outputs of a restart snapshot (`jwm/restart_state.rs`): which live output each saved one stands for, and the monitors that get
their tags back. A panel is known by a key that is unique on both sides, else by its connector; outputs without either are known
only by the rectangles of the whole desktop.
-/
import Jwm.Data.SoleIndex
import Jwm.Wm.Outputs
import Jwm.Wm.RestartMonitor

namespace Jwm

open List Option Bool

/-- `Output` of a snapshot. -/
structure Output where
  stableKey : String
  connector : String
  rect : Rect
deriving DecidableEq

/-! ## Which output it was -/

namespace Output

def named (o : Output) : Bool := o.stableKey != "" || o.connector != ""

def keyed (saved output : Output) : Bool := saved.stableKey != "" && output.stableKey == saved.stableKey

/-- The live output is on the saved connector, and its key, if it has one, is not that of another saved output. -/
def connected (saved : Output) (sources : List Output) (output : Output) : Bool :=
  saved.connector != "" && output.connector == saved.connector &&
    (output.stableKey == "" || output.stableKey == saved.stableKey || !sources.any (·.stableKey == output.stableKey))

end Output

def namedOutput (saved : Output) (live sources : List Output) : Option Nat :=
  let stable := indicesWhere (fun output _ => saved.keyed output) live
  if stable.length = 1 ∧ sources.countP (·.stableKey == saved.stableKey) = 1 then stable.head?
  else
    let connectors := indicesWhere (fun output index =>
      saved.connected sources output && (stable.isEmpty || stable.contains index)) live
    if connectors.length = 1 ∧ sources.countP (·.connector == saved.connector) = 1 then connectors.head? else none

/-- Every saved rectangle is that of one live output, of another one each, which is the one a named output stands for. -/
def geometryKept (live sources : List Output) : List Output → List Nat → Bool
  | [], _ => true
  | source :: rest, claimed =>
    match indicesWhere (fun output _ => output.rect == source.rect) live with
    | [index] =>
      if claimed.contains index then false
      -- a named panel keeps its identity in a mixed snapshot
      else if source.named && namedOutput source live sources != some index then false
      else geometryKept live sources rest (index :: claimed)
    | _ => false

def exactOutput (saved : Output) (live sources : List Output) : Option Nat :=
  if saved.named then namedOutput saved live sources
  else if live.length ≠ sources.length ∨ saved ∉ sources then none
  else if geometryKept live sources sources [] then live.findIdx? (·.rect == saved.rect)
  else none

/-! ## Restoring the monitors -/

def legalTags (saved tagmask fallback : BitVec 32) : BitVec 32 :=
  let saved := saved &&& tagmask
  if saved ≠ 0 then saved
  else
    let fallback := fallback &&& tagmask
    if fallback ≠ 0 then fallback else tagmask &&& -tagmask

def restoredTagSlot (saved : Nat) (active tagmask : BitVec 32) (tagsLength : Nat) : Nat :=
  if tagsLength > 1 ∧ active = tagmask then 0
  else if saved > 0 ∧ saved ≤ tagsLength ∧ active &&& 1#32 <<< (saved - 1) ≠ 0 then saved
  else min (trailingZeros active + 1) tagsLength

/-- One slot; a layout that the catalog does not have stays. -/
def Pertag.restoreTag (p : Pertag) (index : Nat) (tag : RestartTag) : Pertag :=
  { p with
    lts := if tag.layout.inCycle then p.lts.set index tag.layout else p.lts
    prevLts := if tag.alt.inCycle then p.prevLts.set index tag.alt else p.prevLts
    nMasters := p.nMasters.set index tag.nMaster
    mFacts := p.mFacts.set index tag.mFact
    gaps := p.gaps.set index tag.gap
    showBars := p.showBars.set index tag.showBar }

def Pertag.restoreTags (p : Pertag) (tags : List RestartTag) : Pertag :=
  (tags.zipIdx.take p.lts.length).foldl (fun (p : Pertag) (e : RestartTag × Nat) => p.restoreTag e.2 e.1) p

/-- `restore_restart_monitors`, one monitor. A snapshot that selects neither of the two tag sets is refused before. -/
def WMMonitor.restore (m : WMMonitor) (tagmask : BitVec 32) (saved : RestartView) : WMMonitor :=
  let tagSet : Fin 2 → BitVec 32 := fun i => legalTags (saved.tagSet.getD i 0) tagmask 1
  let m := { m with tagSet, selTags := Fin.ofNat 2 saved.selTags }
  let m := { m with pertag := m.pertag.map fun (p : Pertag) =>
    let p := p.restoreTags saved.tags
    { p with curTag := restoredTagSlot saved.curTag (m.tagSet m.selTags) tagmask (p.lts.length - 1) } }
  let m := m.reloadCurrentTagContext
  { m with pertag := m.pertag.map fun (p : Pertag) =>
    { p with prevTag := restoredTagSlot saved.prevTag (m.tagSet (1 - m.selTags)) tagmask (p.lts.length - 1) } }

/-- The monitors of a snapshot, and which of them was selected. -/
structure RestartMonitors where
  monitors : List (Output × RestartView)
  selectedMonitor : Option Nat

namespace RestartMonitors

def sources (snapshot : RestartMonitors) : List Output := snapshot.monitors.map (·.1)

/-- Restore the saved monitor of a position, unless its panel has been claimed. -/
def visit (snapshot : RestartMonitors) (live : List (MonitorKey × Output)) (tagmask : BitVec 32) (acc : WMState × List Nat)
    (source : Nat) : WMState × List Nat :=
  match snapshot.monitors[source]? with
  | none => acc
  | some (output, saved) =>
    match exactOutput output (live.map (·.2)) snapshot.sources with
    | none => acc
    | some index =>
      if acc.2.contains index then acc
      else
        match live[index]? with
        | none => acc
        | some (key, _) =>
          ({ acc.1 with
              monitors := acc.1.monitors.modify key (·.restore tagmask saved)
              selMon := if snapshot.selectedMonitor = some source then some key else acc.1.selMon }, index :: acc.2)

end RestartMonitors

def liveOutputs (s : WMState) (outputs : List OutputInfo) : List (MonitorKey × Output) :=
  s.monitorOrder.filterMap fun key => do
    let monitor ← s.monitors.get? key
    let outputId ← s.outputMap.get? key
    let output ← outputs.find? (·.id == outputId)
    return (key, ⟨output.stableKey, output.connector, monitor.rect⟩)

/-- `restore_restart_monitors`, with the saved monitors visited in some order. -/
def restoreRestartMonitors (snapshot : RestartMonitors) (outputs : List OutputInfo) (tagmask : BitVec 32) (s : WMState)
    (order : List Nat) : WMState :=
  (order.foldl (snapshot.visit (liveOutputs s outputs) tagmask) (s, [])).1

/-! ## One identity, one panel -/

section

variable {saved saved' : Output} {live sources sources' : List Output} {i j k : Nat}

/-- The rule of the connector: a key of a saved output that is live elsewhere does not count. -/
def Output.tethered (saved : Output) (live sources : List Output) (output : Output) : Bool :=
  saved.connected sources output && (!live.any saved.keyed || saved.keyed output)

open Output

theorem connectors_eq (saved : Output) (live sources : List Output) :
    let stable := indicesWhere (fun output _ => saved.keyed output) live
    indicesWhere (fun output index => saved.connected sources output && (stable.isEmpty || stable.contains index)) live =
      indicesWhere (fun output _ => saved.tethered live sources output) live := by
  refine indicesWhere_congr fun i output hi => ?_
  have hcontains : (indicesWhere (fun output _ => saved.keyed output) live).contains i = saved.keyed output := by
    rw [Bool.eq_iff_iff, contains_iff_mem, mem_indicesWhere]
    constructor
    · rintro ⟨a, ha, hkeyed⟩
      rw [hi, some.injEq] at ha
      exact ha ▸ hkeyed
    · exact fun hkeyed => ⟨output, hi, hkeyed⟩
  have hempty : (indicesWhere (fun output _ => saved.keyed output) live).isEmpty = !live.any saved.keyed := by
    rw [Bool.eq_iff_iff, List.isEmpty_iff, not_eq_true', List.any_eq_false, eq_nil_iff_forall_not_mem]
    constructor
    · intro h a ha hkeyed
      obtain ⟨n, hn⟩ := getElem?_of_mem ha
      exact h n (mem_indicesWhere.2 ⟨a, hn, hkeyed⟩)
    · intro h n hn
      obtain ⟨a, ha, hkeyed⟩ := mem_indicesWhere.1 hn
      exact h a (mem_of_getElem? ha) hkeyed
  unfold tethered
  rw [hcontains, hempty]

/-- The key is that of one live output, and of one saved one. -/
def KeyKnown (saved : Output) (live sources : List Output) : Prop :=
  (∃ i, SoleAt saved.keyed live i) ∧ sources.countP (·.stableKey == saved.stableKey) = 1

/-- What `named_output` finds: the one panel with the key, or the one panel tethered by its connector. -/
theorem namedOutput_eq_some : namedOutput saved live sources = some k ↔
    (SoleAt saved.keyed live k ∧ sources.countP (·.stableKey == saved.stableKey) = 1) ∨
      (¬ KeyKnown saved live sources ∧ SoleAt (saved.tethered live sources) live k ∧
        sources.countP (·.connector == saved.connector) = 1) := by
  have hhead : ∀ {p : Output → Bool}, (indicesWhere (fun o _ => p o) live).length = 1 →
      ((indicesWhere (fun o _ => p o) live).head? = some k ↔ SoleAt p live k) := by
    intro p hone
    obtain ⟨n, hn⟩ := length_eq_one_iff.1 hone
    rw [← indicesWhere_eq_singleton, hn]
    simp
  have hknown : KeyKnown saved live sources ↔ (indicesWhere (fun output _ => saved.keyed output) live).length = 1 ∧
      sources.countP (·.stableKey == saved.stableKey) = 1 := by
    unfold KeyKnown
    rw [indicesWhere_length_one]
  unfold namedOutput
  dsimp only
  rw [connectors_eq]
  by_cases hkey : KeyKnown saved live sources
  · rw [if_pos (hknown.1 hkey), hhead (hknown.1 hkey).1]
    constructor
    · exact fun h => .inl ⟨h, hkey.2⟩
    · rintro (⟨h, -⟩ | ⟨h, -⟩)
      · exact h
      · exact absurd hkey h
  · rw [if_neg fun h => hkey (hknown.2 h)]
    have hnot : ¬ (SoleAt saved.keyed live k ∧ sources.countP (·.stableKey == saved.stableKey) = 1) :=
      fun h => hkey ⟨⟨k, h.1⟩, h.2⟩
    split
    · rename_i hconn
      rw [hhead hconn.1]
      constructor
      · exact fun h => .inr ⟨hkey, h, hconn.2⟩
      · rintro (h | ⟨-, h, -⟩)
        · exact absurd h hnot
        · exact h
    · rename_i hconn
      constructor
      · intro h
        cases h
      · rintro (h | ⟨-, h, hcount⟩)
        · exact absurd h hnot
        · exact absurd ⟨indicesWhere_length_one.2 ⟨k, h⟩, hcount⟩ hconn

theorem namedOutput_lt (h : namedOutput saved live sources = some k) : k < live.length := by
  rcases namedOutput_eq_some.1 h with ⟨h, -⟩ | ⟨-, h, -⟩
  · exact h.lt
  · exact h.lt

/-- Two saved outputs with one key or connector are one saved output, if only one has it. -/
theorem eq_of_countP {p : Output → Bool} (hcount : sources.countP p = 1) (hi : sources[i]? = some saved) (hj : sources[j]? = some saved')
    (hp : p saved = true) (hp' : p saved' = true) : i = j := by
  obtain ⟨n, hn⟩ := countP_eq_one.1 hcount
  exact (hn.sole i saved hi hp).trans (hn.sole j saved' hj hp').symm

theorem namedOutput_injective (hi : sources[i]? = some saved) (hj : sources[j]? = some saved')
    (h : namedOutput saved live sources = some k) (h' : namedOutput saved' live sources = some k) : i = j := by
  -- a panel that one output has by its key is not tethered by another one
  have hcross : ∀ {i j : Nat} {saved saved' : Output}, sources[i]? = some saved → sources[j]? = some saved' →
      SoleAt saved.keyed live k → sources.countP (·.stableKey == saved.stableKey) = 1 → SoleAt (saved'.tethered live sources) live k →
        i = j := by
    intro i j saved saved' hi hj hkey hcount htether
    obtain ⟨panel, hpanel, hkeyed⟩ := hkey.holds
    obtain ⟨panel', hpanel', htethered⟩ := htether.holds
    obtain rfl : panel = panel' := some.inj (hpanel.symm.trans hpanel')
    unfold keyed at hkeyed
    unfold tethered connected at htethered
    simp only [and_eq_true, or_eq_true, bne_iff_ne, beq_iff_eq, not_eq_true'] at hkeyed htethered
    obtain ⟨⟨-, hveto⟩, -⟩ := htethered
    rcases hveto with (hempty | hsame) | hfree
    · exact absurd (hkeyed.2 ▸ hempty) hkeyed.1
    · exact eq_of_countP hcount hi hj (beq_self_eq_true _) (beq_iff_eq.2 (hsame.symm.trans hkeyed.2))
    · rw [List.any_eq_false] at hfree
      exact absurd (beq_iff_eq.2 hkeyed.2.symm) (hfree saved (mem_of_getElem? hi))
  rcases namedOutput_eq_some.1 h with ⟨hkey, hcount⟩ | ⟨-, htether, hcount⟩
  · rcases namedOutput_eq_some.1 h' with ⟨hkey', -⟩ | ⟨-, htether', -⟩
    · obtain ⟨panel, hpanel, hkeyed⟩ := hkey.holds
      obtain ⟨panel', hpanel', hkeyed'⟩ := hkey'.holds
      obtain rfl : panel = panel' := some.inj (hpanel.symm.trans hpanel')
      unfold keyed at hkeyed hkeyed'
      rw [and_eq_true, beq_iff_eq] at hkeyed hkeyed'
      exact eq_of_countP hcount hi hj (beq_self_eq_true _) (beq_iff_eq.2 (hkeyed'.2.symm.trans hkeyed.2))
    · exact hcross hi hj hkey hcount htether'
  · rcases namedOutput_eq_some.1 h' with ⟨hkey', hcount'⟩ | ⟨-, htether', -⟩
    · exact (hcross hj hi hkey' hcount' htether).symm
    · obtain ⟨panel, hpanel, htethered⟩ := htether.holds
      obtain ⟨panel', hpanel', htethered'⟩ := htether'.holds
      obtain rfl : panel = panel' := some.inj (hpanel.symm.trans hpanel')
      unfold tethered connected at htethered htethered'
      simp only [and_eq_true, beq_iff_eq] at htethered htethered'
      exact eq_of_countP hcount hi hj (beq_self_eq_true _)
        (beq_iff_eq.2 (htethered'.1.1.2.symm.trans htethered.1.1.2))

/-! ## The whole desktop -/

def Output.aligned (saved output : Output) : Bool := output.rect == saved.rect

/-- Every saved output has one live output with its rectangle, which a named one stands for; no two have the same rectangle. -/
structure GeometryKept (live sources rest : List Output) (claimed : List Nat) : Prop where
  found : ∀ source ∈ rest, ∃ n, SoleAt source.aligned live n ∧ n ∉ claimed ∧
    (source.named = true → namedOutput source live sources = some n)
  distinct : rest.Pairwise (·.rect ≠ ·.rect)

theorem SoleAt.aligned_rect {output : Output} (h : SoleAt saved.aligned live k) (hk : live[k]? = some output) :
    output.rect = saved.rect := by
  obtain ⟨a, ha, haligned⟩ := h.holds
  rw [hk, some.injEq] at ha
  exact ha ▸ beq_iff_eq.1 haligned

theorem geometryKept_iff : ∀ {rest : List Output} {claimed : List Nat},
    geometryKept live sources rest claimed = true ↔ GeometryKept live sources rest claimed
  | [], claimed => ⟨fun _ => ⟨fun _ h => absurd h not_mem_nil, .nil⟩, fun _ => rfl⟩
  | source :: rest, claimed => by
    unfold geometryKept
    by_cases hsole : ∃ n, SoleAt source.aligned live n
    · obtain ⟨n, hn⟩ := hsole
      have hidx : indicesWhere (fun output _ => output.rect == source.rect) live = [n] := indicesWhere_eq_singleton.2 hn
      rw [hidx]
      dsimp only
      obtain ⟨panel, hpanel, -⟩ := hn.holds
      rcases hclaimed : claimed.contains n with _ | _
      · have hfree : n ∉ claimed := fun h => absurd (contains_iff_mem.2 h) (by rw [hclaimed]; exact Bool.false_ne_true)
        rw [if_neg Bool.false_ne_true]
        by_cases hname : source.named = true → namedOutput source live sources = some n
        · rw [if_neg (by simp only [and_eq_true, bne_iff_ne]; exact fun h => h.2 (hname h.1)), geometryKept_iff]
          constructor
          · rintro ⟨hfound, hdistinct⟩
            refine ⟨fun other hother => ?_, pairwise_cons.2 ⟨fun other hother hrect => ?_, hdistinct⟩⟩
            · rcases mem_cons.1 hother with rfl | hother
              · exact ⟨n, hn, hfree, hname⟩
              · obtain ⟨m, hm, hnot, hnamed⟩ := hfound other hother
                exact ⟨m, hm, fun h => hnot (mem_cons_of_mem _ h), hnamed⟩
            · obtain ⟨m, hm, hnot, -⟩ := hfound other hother
              refine hnot (mem_cons.2 (.inl (hm.sole n panel hpanel ?_).symm))
              exact beq_iff_eq.2 ((hn.aligned_rect hpanel).trans hrect)
          · rintro ⟨hfound, hdistinct⟩
            obtain ⟨hhead, htail⟩ := pairwise_cons.1 hdistinct
            refine ⟨fun other hother => ?_, htail⟩
            obtain ⟨m, hm, hnot, hnamed⟩ := hfound other (mem_cons_of_mem _ hother)
            refine ⟨m, hm, fun h => ?_, hnamed⟩
            rcases mem_cons.1 h with rfl | h
            · exact hhead other hother ((hn.aligned_rect hpanel).symm.trans (hm.aligned_rect hpanel))
            · exact hnot h
        · rw [if_pos (by push Not at hname; simpa only [and_eq_true, bne_iff_ne] using hname)]
          refine iff_of_false Bool.false_ne_true fun h => hname fun hnamed => ?_
          obtain ⟨m, hm, -, hm'⟩ := h.found source (mem_cons_self ..)
          rw [hn.eq hm]
          exact hm' hnamed
      · rw [if_pos rfl]
        refine iff_of_false Bool.false_ne_true fun h => ?_
        obtain ⟨m, hm, hnot, -⟩ := h.found source (mem_cons_self ..)
        exact hnot (hn.eq hm ▸ contains_iff_mem.1 hclaimed)
    · have hnone : ¬ GeometryKept live sources (source :: rest) claimed := fun h => by
        obtain ⟨n, hn, -⟩ := h.found source (mem_cons_self ..)
        exact hsole ⟨n, hn⟩
      rcases hidx : indicesWhere (fun output _ => output.rect == source.rect) live with _ | ⟨n, _ | ⟨m, tail⟩⟩
      · rw [hidx]
        exact iff_of_false Bool.false_ne_true hnone
      · exact absurd ⟨n, indicesWhere_eq_singleton.1 hidx⟩ hsole
      · rw [hidx]
        exact iff_of_false Bool.false_ne_true hnone

/-- What `exact_output` finds for an output without a name. -/
theorem exactOutput_unnamed (hn : saved.named = false) : exactOutput saved live sources = some k ↔
    live.length = sources.length ∧ saved ∈ sources ∧ GeometryKept live sources sources [] ∧ SoleAt saved.aligned live k := by
  unfold exactOutput
  rw [hn, if_neg Bool.false_ne_true]
  split
  · rename_i hwhole
    refine iff_of_false (fun h => by cases h) ?_
    rintro ⟨hlen, hmem, -⟩
    rcases hwhole with h | h
    · exact h hlen
    · exact h hmem
  · rename_i hwhole
    push Not at hwhole
    rcases hkept : geometryKept live sources sources [] with _ | _
    · rw [if_neg Bool.false_ne_true]
      refine iff_of_false (fun h => by cases h) ?_
      rintro ⟨-, -, h, -⟩
      rw [geometryKept_iff.2 h] at hkept
      cases hkept
    · rw [if_pos rfl]
      have h := geometryKept_iff.1 hkept
      obtain ⟨n, hsole, -⟩ := h.found saved hwhole.2
      have hfind : live.findIdx? (·.rect == saved.rect) = some n := hsole.findIdx?
      rw [hfind, some.injEq]
      constructor
      · rintro rfl
        exact ⟨hwhole.1, hwhole.2, h, hsole⟩
      · rintro ⟨-, -, -, hk⟩
        exact hsole.eq hk

theorem exactOutput_named (hn : saved.named = true) : exactOutput saved live sources = namedOutput saved live sources := by
  unfold exactOutput
  rw [if_pos hn]

theorem exactOutput_lt (h : exactOutput saved live sources = some k) : k < live.length := by
  cases hn : saved.named with
  | true =>
    rw [exactOutput_named hn] at h
    exact namedOutput_lt h
  | false => exact ((exactOutput_unnamed hn).1 h).2.2.2.lt

/-- In a desktop whose rectangles are kept, one panel has one rectangle, and is one saved output. -/
theorem GeometryKept.eq_of_rect (h : GeometryKept live sources sources []) (hi : sources[i]? = some saved)
    (hj : sources[j]? = some saved') (hrect : saved.rect = saved'.rect) : i = j := by
  obtain ⟨hi', rfl⟩ := List.getElem?_eq_some_iff.1 hi
  obtain ⟨hj', rfl⟩ := List.getElem?_eq_some_iff.1 hj
  have hdistinct := pairwise_iff_getElem.1 h.distinct
  rcases Nat.lt_trichotomy i j with hlt | heq | hgt
  · exact absurd hrect (hdistinct i j hi' hj' hlt)
  · exact heq
  · exact absurd hrect.symm (hdistinct j i hj' hi' hgt)

theorem exactOutput_injective (hi : sources[i]? = some saved) (hj : sources[j]? = some saved')
    (h : exactOutput saved live sources = some k) (h' : exactOutput saved' live sources = some k) : i = j := by
  -- an unnamed output stands for a panel only while every rectangle is kept
  have hunnamed : ∀ {i j : Nat} {saved saved' : Output}, saved.named = false → sources[i]? = some saved → sources[j]? = some saved' →
      exactOutput saved live sources = some k → exactOutput saved' live sources = some k → i = j := by
    intro i j saved saved' hn hi hj h h'
    obtain ⟨-, -, hkept, hsole⟩ := (exactOutput_unnamed hn).1 h
    have hsole' : SoleAt saved'.aligned live k := by
      cases hn' : saved'.named with
      | false => exact ((exactOutput_unnamed hn').1 h').2.2.2
      | true =>
        obtain ⟨n, hsole, -, hnamed⟩ := hkept.found saved' (mem_of_getElem? hj)
        rw [exactOutput_named hn', hnamed hn', some.injEq] at h'
        exact h' ▸ hsole
    obtain ⟨panel, hpanel, -⟩ := hsole.holds
    exact hkept.eq_of_rect hi hj ((hsole.aligned_rect hpanel).symm.trans (hsole'.aligned_rect hpanel))
  cases hn : saved.named with
  | false => exact hunnamed hn hi hj h h'
  | true =>
    cases hn' : saved'.named with
    | false => exact (hunnamed hn' hj hi h' h).symm
    | true =>
      rw [exactOutput_named hn] at h
      rw [exactOutput_named hn'] at h'
      exact namedOutput_injective hi hj h h'

/-! ## Other orders -/

section

variable (h : sources.Perm sources')
include h

theorem keyKnown_perm : KeyKnown saved live sources ↔ KeyKnown saved live sources' := by
  unfold KeyKnown
  rw [h.countP_eq]

theorem tethered_perm : saved.tethered live sources = saved.tethered live sources' := by
  funext output
  unfold tethered connected
  rw [h.any_eq]

theorem namedOutput_perm : namedOutput saved live sources = namedOutput saved live sources' := by
  refine ext fun k => ?_
  rw [namedOutput_eq_some, namedOutput_eq_some, keyKnown_perm h, tethered_perm h, h.countP_eq, h.countP_eq]

theorem geometryKept_perm (hk : GeometryKept live sources sources []) : GeometryKept live sources' sources' [] := by
  refine ⟨fun source hsource => ?_, (h.pairwise_iff fun hne => hne.symm).1 hk.distinct⟩
  rw [← namedOutput_perm h]
  exact hk.found source (h.mem_iff.2 hsource)

theorem exactOutput_perm : exactOutput saved live sources = exactOutput saved live sources' := by
  cases hn : saved.named with
  | true => rw [exactOutput_named hn, exactOutput_named hn, namedOutput_perm h]
  | false =>
    refine ext fun k => ?_
    rw [exactOutput_unnamed hn, exactOutput_unnamed hn, h.length_eq, h.mem_iff]
    have hkept : GeometryKept live sources sources [] ↔ GeometryKept live sources' sources' [] :=
      ⟨geometryKept_perm h, geometryKept_perm h.symm⟩
    rw [hkept]

end

section

variable (σ : Equiv.Perm (Fin live.length))
include σ

theorem namedOutput_reorder (i : Fin live.length) :
    namedOutput saved (reorder live σ) sources = some i.val ↔ namedOutput saved live sources = some (σ i).val := by
  have hany : (reorder live σ).any saved.keyed = live.any saved.keyed := reorder_perm.any_eq
  have htether : saved.tethered (reorder live σ) sources = saved.tethered live sources := by
    funext output
    unfold tethered
    rw [hany]
  have hknown : KeyKnown saved (reorder live σ) sources ↔ KeyKnown saved live sources := by
    unfold KeyKnown
    rw [← countP_eq_one, ← countP_eq_one, reorder_perm.countP_eq]
  rw [namedOutput_eq_some, namedOutput_eq_some, htether, hknown, soleAt_reorder, soleAt_reorder]

theorem exists_reorder (h : k < live.length) : ∃ i : Fin live.length, (σ i).val = k :=
  ⟨σ.symm ⟨k, h⟩, congrArg Fin.val (σ.apply_symm_apply _)⟩

theorem geometryKept_reorder : GeometryKept (reorder live σ) sources sources [] ↔ GeometryKept live sources sources [] := by
  constructor
  · rintro ⟨hfound, hdistinct⟩
    refine ⟨fun source hsource => ?_, hdistinct⟩
    obtain ⟨n, hn, -, hnamed⟩ := hfound source hsource
    obtain ⟨i, rfl⟩ : ∃ i : Fin live.length, i.val = n := ⟨⟨n, reorder_length live σ ▸ hn.lt⟩, rfl⟩
    rw [soleAt_reorder] at hn
    rw [namedOutput_reorder] at hnamed
    exact ⟨_, hn, not_mem_nil, hnamed⟩
  · rintro ⟨hfound, hdistinct⟩
    refine ⟨fun source hsource => ?_, hdistinct⟩
    obtain ⟨n, hn, -, hnamed⟩ := hfound source hsource
    obtain ⟨i, rfl⟩ := exists_reorder σ hn.lt
    rw [← soleAt_reorder] at hn
    rw [← namedOutput_reorder] at hnamed
    exact ⟨_, hn, not_mem_nil, hnamed⟩

theorem exactOutput_reorder (i : Fin live.length) :
    exactOutput saved (reorder live σ) sources = some i.val ↔ exactOutput saved live sources = some (σ i).val := by
  cases hn : saved.named with
  | true => rw [exactOutput_named hn, exactOutput_named hn, namedOutput_reorder]
  | false => rw [exactOutput_unnamed hn, exactOutput_unnamed hn, reorder_length, geometryKept_reorder, soleAt_reorder]

end

/-- A saved desktop that is live again: every key is that of one output on both sides. -/
theorem exactOutput_counterpart (h : sources.Perm live) (hkeys : (sources.map (·.stableKey)).Nodup)
    (hnamed : ∀ source ∈ sources, source.stableKey ≠ "") (hmem : saved ∈ sources) :
    ∃ k, exactOutput saved live sources = some k ∧ live[k]? = some saved := by
  have hname := hnamed saved hmem
  have hsame : ∀ other ∈ sources, other.stableKey = saved.stableKey → other = saved :=
    fun other hother hkey => inj_on_of_nodup_map hkeys hother hmem hkey
  have hnodup : sources.Nodup := hkeys.of_map _
  obtain ⟨k, hk⟩ := getElem?_of_mem (h.mem_iff.1 hmem)
  have hsole : SoleAt saved.keyed live k := by
    refine ⟨⟨saved, hk, by simp [keyed, hname]⟩, fun j other hj hkeyed => ?_⟩
    unfold keyed at hkeyed
    rw [and_eq_true, beq_iff_eq] at hkeyed
    obtain rfl := hsame other (h.mem_iff.2 (mem_of_getElem? hj)) hkeyed.2
    exact (getElem?_inj (List.getElem?_eq_some_iff.1 hj).1 (h.nodup_iff.1 hnodup)).1 (hj.trans hk.symm)
  have hcount : sources.countP (·.stableKey == saved.stableKey) = 1 := by
    have hp : sources.countP (·.stableKey == saved.stableKey) = sources.count saved := by
      rw [count]
      refine countP_congr fun other hother => ?_
      rw [beq_iff_eq, beq_iff_eq]
      exact ⟨hsame other hother, fun he => he ▸ rfl⟩
    rw [hp]
    exact count_eq_one_of_mem hnodup hmem
  refine ⟨k, ?_, hk⟩
  rw [exactOutput_named (by simp [named, hname]), namedOutput_eq_some]
  exact .inl ⟨hsole, hcount⟩

end

/-! ## The order of the visits -/

theorem KeyMap.modify_comm {K V : Type} [DecidableEq K] (m : KeyMap K V) {k k' : K} (hne : k ≠ k') (f g : V → V) :
    (m.modify k f).modify k' g = (m.modify k' g).modify k f := by
  have hentries : ∀ (e : K × V), (if (if e.1 = k then (e.1, f e.2) else e).1 = k' then
      ((if e.1 = k then (e.1, f e.2) else e).1, g (if e.1 = k then (e.1, f e.2) else e).2)
      else (if e.1 = k then (e.1, f e.2) else e)) =
      (if (if e.1 = k' then (e.1, g e.2) else e).1 = k then
        ((if e.1 = k' then (e.1, g e.2) else e).1, f (if e.1 = k' then (e.1, g e.2) else e).2)
        else (if e.1 = k' then (e.1, g e.2) else e)) := by
    intro e
    by_cases h : e.1 = k
    · have h' : e.1 ≠ k' := fun h' => hne (h.symm.trans h')
      simp [h, hne]
    · by_cases h' : e.1 = k'
      · simp [h', hne.symm]
      · simp [h, h']
  unfold modify
  congr 1
  rw [List.map_map, List.map_map]
  exact map_congr_left fun e _ => hentries e

namespace RestartMonitors

variable {snapshot : RestartMonitors} {live : List (MonitorKey × Output)} {tagmask : BitVec 32} {s : WMState} {i j : Nat}

/-- The live output that the saved monitor of a position stands for. -/
def target (snapshot : RestartMonitors) (live : List (MonitorKey × Output)) (source : Nat) : Option Nat :=
  (snapshot.monitors[source]?).bind fun m => exactOutput m.1 (live.map (·.2)) snapshot.sources

theorem target_lt (h : snapshot.target live i = some j) : j < live.length := by
  obtain ⟨m, -, hm⟩ := bind_eq_some_iff.1 h
  have := exactOutput_lt hm
  rwa [length_map] at this

theorem target_injective {k : Nat} (h : snapshot.target live i = some k) (h' : snapshot.target live j = some k) : i = j := by
  obtain ⟨m, hm, hk⟩ := bind_eq_some_iff.1 h
  obtain ⟨m', hm', hk'⟩ := bind_eq_some_iff.1 h'
  have hsource : ∀ {n : Nat} {m : Output × RestartView}, snapshot.monitors[n]? = some m → snapshot.sources[n]? = some m.1 := by
    intro n m hm
    unfold sources
    rw [getElem?_map, hm]
    rfl
  exact exactOutput_injective (hsource hm) (hsource hm') hk hk'

/-- What a visit writes when nobody has claimed the panel. -/
def place (snapshot : RestartMonitors) (live : List (MonitorKey × Output)) (tagmask : BitVec 32) (s : WMState) (source : Nat) : WMState :=
  match (snapshot.target live source).bind (live[·]?), snapshot.monitors[source]? with
  | some (key, _), some (_, saved) =>
    { s with
      monitors := s.monitors.modify key (·.restore tagmask saved)
      selMon := if snapshot.selectedMonitor = some source then some key else s.selMon }
  | _, _ => s

theorem visit_free {acc : WMState × List Nat} (h : ∀ k, snapshot.target live i = some k → k ∉ acc.2) :
    snapshot.visit live tagmask acc i = (snapshot.place live tagmask acc.1 i, (snapshot.target live i).toList ++ acc.2) := by
  unfold visit place
  have hlive : ∀ k, snapshot.target live i = some k → k < live.length := fun k => target_lt
  unfold target at h hlive ⊢
  rcases hm : snapshot.monitors[i]? with _ | ⟨output, saved⟩
  · rfl
  · rw [hm, bind_some] at h hlive
    rw [bind_some]
    dsimp only at h hlive ⊢
    rcases hexact : exactOutput output (live.map (·.2)) snapshot.sources with _ | k
    · rw [hexact]
      rfl
    · have hk := h k hexact
      have hget := getElem?_eq_getElem (hlive k hexact)
      rw [hexact, bind_some]
      dsimp only
      rw [if_neg fun hmem => hk (contains_iff_mem.1 hmem), hget]
      rfl

theorem foldl_visit : ∀ {order : List Nat} {s : WMState} {claimed : List Nat}, order.Nodup →
    (∀ i ∈ order, ∀ k, snapshot.target live i = some k → k ∉ claimed) →
      (order.foldl (snapshot.visit live tagmask) (s, claimed)).1 = order.foldl (snapshot.place live tagmask) s
  | [], _, _, _, _ => rfl
  | i :: order, s, claimed, hnodup, hfree => by
    obtain ⟨hi, hnodup⟩ := nodup_cons.1 hnodup
    rw [foldl_cons, foldl_cons, visit_free (hfree i (mem_cons_self ..)), foldl_visit hnodup]
    intro j hj k hk hmem
    rcases mem_append.1 hmem with hmem | hmem
    · exact hi (target_injective (mem_toList.1 hmem) hk ▸ hj)
    · exact hfree j (mem_cons_of_mem _ hj) k hk hmem

/-- Two positions write different monitors, and only one of them is the selected one. -/
theorem place_comm (hkeys : (live.map (·.1)).Nodup) (s : WMState) (i j : Nat) :
    snapshot.place live tagmask (snapshot.place live tagmask s i) j = snapshot.place live tagmask (snapshot.place live tagmask s j) i := by
  rcases eq_or_ne i j with rfl | hij
  · rfl
  · unfold place
    rcases hi : snapshot.target live i with _ | k
    · rfl
    · rcases hj : snapshot.target live j with _ | k'
      · rfl
      · have hk := target_lt hi
        have hk' := target_lt hj
        have hkk : k ≠ k' := fun h => hij (target_injective hi (h ▸ hj))
        rw [bind_some, bind_some, getElem?_eq_getElem hk, getElem?_eq_getElem hk']
        have hne : live[k].1 ≠ live[k'].1 := by
          intro h
          have hmap : (live.map (·.1))[k]? = (live.map (·.1))[k']? := by
            rw [getElem?_map, getElem?_map, getElem?_eq_getElem hk, getElem?_eq_getElem hk', map_some, map_some, h]
          exact hkk ((getElem?_inj (by rwa [length_map]) hkeys).1 hmap)
        generalize live[k] = e at hne ⊢
        generalize live[k'] = e' at hne ⊢
        obtain ⟨key, panel⟩ := e
        obtain ⟨key', panel'⟩ := e'
        rcases snapshot.monitors[i]? with _ | ⟨output, saved⟩
        · rfl
        · rcases snapshot.monitors[j]? with _ | ⟨output', saved'⟩
          · rfl
          · dsimp only
            rw [KeyMap.modify_comm s.monitors hne]
            congr 1
            by_cases hsi : snapshot.selectedMonitor = some i
            · have hsj : snapshot.selectedMonitor ≠ some j := fun hsj => hij (some.inj (hsi.symm.trans hsj))
              rw [if_pos hsi, if_neg hsj, if_pos hsi]
            · rw [if_neg hsi, if_neg hsi]

end RestartMonitors

theorem liveOutputs_keys (s : WMState) (outputs : List OutputInfo) : ((liveOutputs s outputs).map (·.1)).Sublist s.monitorOrder := by
  unfold liveOutputs
  generalize s.monitorOrder = order
  induction order with
  | nil => exact .slnil
  | cons key order ih =>
    rw [filterMap_cons]
    split
    · exact ih.cons key
    · rename_i e he
      obtain ⟨monitor, -, he⟩ := bind_eq_some_iff.1 he
      obtain ⟨outputId, -, he⟩ := bind_eq_some_iff.1 he
      obtain ⟨output, -, he⟩ := bind_eq_some_iff.1 he
      cases he
      exact ih.cons_cons key

open RestartMonitors

theorem restoreRestartMonitors_perm (snapshot : RestartMonitors) (outputs : List OutputInfo) (tagmask : BitVec 32) {s : WMState}
    {order : List Nat} (hs : s.monitorOrder.Nodup) (h : order.Perm (List.range snapshot.monitors.length)) :
    restoreRestartMonitors snapshot outputs tagmask s order =
      restoreRestartMonitors snapshot outputs tagmask s (List.range snapshot.monitors.length) := by
  have hkeys : ((liveOutputs s outputs).map (·.1)).Nodup := hs.sublist (liveOutputs_keys s outputs)
  unfold restoreRestartMonitors
  rw [foldl_visit (h.nodup_iff.2 nodup_range) fun _ _ _ _ => not_mem_nil,
    foldl_visit nodup_range fun _ _ _ _ => not_mem_nil]
  exact h.foldl_eq' (fun i _ j _ s => place_comm hkeys s i j) s

/-- Distinct saved outputs stand for distinct live ones, whatever the order of either list; a desktop that is live again is found
again; and the monitors may be restored in any order. -/
theorem saved_outputs_never_compete (live sources : List Output) :
    (∀ (i j : Nat) (saved saved' : Output) (k : Nat), sources[i]? = some saved → sources[j]? = some saved' → exactOutput saved live sources = some k →
      exactOutput saved' live sources = some k → i = j) ∧
    (∀ saved k, exactOutput saved live sources = some k → k < live.length) ∧
    (∀ saved (σ : Equiv.Perm (Fin live.length)) (i : Fin live.length),
      exactOutput saved (reorder live σ) sources = some i.val ↔ exactOutput saved live sources = some (σ i).val) ∧
    (∀ saved sources', sources.Perm sources' → exactOutput saved live sources = exactOutput saved live sources') ∧
    (sources.Perm live → (sources.map (·.stableKey)).Nodup → (∀ source ∈ sources, source.stableKey ≠ "") →
      ∀ saved ∈ sources, ∃ k, exactOutput saved live sources = some k ∧ live[k]? = some saved) ∧
    ∀ (snapshot : RestartMonitors) (outputs : List OutputInfo) (tagmask : BitVec 32) (s : WMState) (order : List Nat),
      s.monitorOrder.Nodup → order.Perm (List.range snapshot.monitors.length) →
        restoreRestartMonitors snapshot outputs tagmask s order =
          restoreRestartMonitors snapshot outputs tagmask s (List.range snapshot.monitors.length) := by
  refine ⟨?_, ?_, ?_, ?_, ?_, ?_⟩
  · intro i j saved saved' k
    exact exactOutput_injective
  · intro saved k
    exact exactOutput_lt
  · intro saved σ i
    exact exactOutput_reorder σ i
  · intro saved sources'
    exact exactOutput_perm
  · intro h hkeys hnamed saved hmem
    exact exactOutput_counterpart h hkeys hnamed hmem
  · intro snapshot outputs tagmask s order
    exact restoreRestartMonitors_perm snapshot outputs tagmask

/-- Two panels that were enumerated the other way round. -/
theorem saved_outputs_never_compete_swapped :
    ∃ k, exactOutput ⟨"panel-a", "DP-1", ⟨0, 0, 1920, 1080⟩⟩
        [⟨"panel-b", "DP-2", ⟨1920, 0, 1920, 1080⟩⟩, ⟨"panel-a", "DP-1", ⟨0, 0, 1920, 1080⟩⟩]
        [⟨"panel-a", "DP-1", ⟨0, 0, 1920, 1080⟩⟩, ⟨"panel-b", "DP-2", ⟨1920, 0, 1920, 1080⟩⟩] = some k ∧
      ([⟨"panel-b", "DP-2", ⟨1920, 0, 1920, 1080⟩⟩, ⟨"panel-a", "DP-1", ⟨0, 0, 1920, 1080⟩⟩] : List Output)[k]? =
        some ⟨"panel-a", "DP-1", ⟨0, 0, 1920, 1080⟩⟩ := by
  obtain ⟨-, -, -, -, hlive, -⟩ := saved_outputs_never_compete
    [⟨"panel-b", "DP-2", ⟨1920, 0, 1920, 1080⟩⟩, ⟨"panel-a", "DP-1", ⟨0, 0, 1920, 1080⟩⟩]
    [⟨"panel-a", "DP-1", ⟨0, 0, 1920, 1080⟩⟩, ⟨"panel-b", "DP-2", ⟨1920, 0, 1920, 1080⟩⟩]
  exact hlive (.swap _ _ _) (by decide) (by decide) _ (mem_cons_self ..)

end Jwm
