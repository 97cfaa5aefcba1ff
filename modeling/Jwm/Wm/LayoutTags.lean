/-
Layouts saved for every tag of every output (`jwm/layout/persist.rs`, `Config::layout_for_tag_on_output`). A save merges the
rows of the live monitors into those of the file: a named output owns its rows by connector, an output without a name by
number.
-/
import Jwm.Core.Monitor
import Jwm.Data.StableSort
import Mathlib.Data.Prod.Lex

namespace Jwm

open List Option

/-- `LayoutTagConfig`: one tag's layout on one monitor, as the file has it. -/
structure LayoutTagRow where
  tag : Nat
  /-- Negative for any monitor. -/
  monitor : Int
  connector : Option String
  layout : String
  alt : String
  nMaster : Option Nat
  mFact : Option Float32
  gap : Option Int
  showBar : Option Bool
deriving DecidableEq

namespace LayoutTagRow

def key (row : LayoutTagRow) : Int ×ₗ Nat := toLex (row.monitor, row.tag)

def named (row : LayoutTagRow) : Option String := row.connector.filter (· != "")

end LayoutTagRow

/-! ## Saving -/

/-- The row of one tag of a monitor; a value equal to the default is left out. -/
def layoutTagEntry (defaults : LayoutDefaults) (monitor : WMMonitor) (pertag : Pertag) (connector : Option String) (tag : Nat)
    (layout : LayoutEnum) : LayoutTagRow where
  tag
  monitor := monitor.num
  connector
  layout := layout.name
  alt := ((pertag.prevLts[tag]?).map (·.name)).getD ""
  nMaster := (pertag.nMasters[tag]?).filter (· != defaults.nMaster)
  mFact := (pertag.mFacts[tag]?).filter (· != defaults.mFact)
  gap := (pertag.gaps[tag]?).filter (· != defaults.gap)
  showBar := pertag.showBars[tag]?

/-- `layout_tag_entries`; `outputKeyForMonitor` is the key or the connector of a monitor's output, if it has one. -/
def layoutTagEntries (s : WMState) (tagsLength : Nat) (defaults : LayoutDefaults) (outputKeyForMonitor : MonitorKey → Option String) :
    List LayoutTagRow :=
  s.monitorOrder.flatMap fun monKey =>
    match s.monitors.get? monKey with
    | none => []
    | some monitor =>
      match monitor.pertag with
      | none => []
      | some pertag => (List.range (tagsLength + 1)).filterMap fun tag =>
        (pertag.lts[tag]?).map (layoutTagEntry defaults monitor pertag (outputKeyForMonitor monKey) tag)

def keepsRow (live : List LayoutTagRow) (row : LayoutTagRow) : Bool :=
  if row.monitor < 0 then true
  else
    match row.named with
    | some connector => !live.any fun other => other.named == some connector
    | none => !live.any fun other => other.monitor == row.monitor

def mergeLayoutTagEntries (existing live : List LayoutTagRow) : List LayoutTagRow :=
  sortByKey LayoutTagRow.key (existing.filter (keepsRow live) ++ live)

/-! ## Looking up -/

/-- The row may speak for the monitor of this number on the output of this name. -/
def numbered (monitor : Int) (name : Option String) (row : LayoutTagRow) : Bool :=
  row.monitor == monitor &&
    match row.connector, name with
    -- a row that names another output belongs there
    | some saved, some live => saved == live
    | _, _ => true

def layoutForTagOnOutput (tags : List LayoutTagRow) (monitor : Int) (tag : Nat) (connector : Option String) : Option LayoutTagRow :=
  let key := connector.filter (· != "")
  ((key.bind fun name => (tags.filter (·.tag == tag)).find? (·.connector == some name)).or
    ((tags.filter (·.tag == tag)).find? (numbered monitor key))).or ((tags.filter (·.tag == tag)).find? (decide <| ·.monitor < 0))

/-! ## Rows of the live monitors -/

/-- Rows of monitors with their own numbers and names: one for each monitor and tag. -/
structure LiveRows (live : List LayoutTagRow) : Prop where
  nonneg : ∀ row ∈ live, 0 ≤ row.monitor
  unique : ∀ row ∈ live, ∀ other ∈ live, row.key = other.key → row = other
  connector : ∀ row ∈ live, ∀ other ∈ live, row.monitor = other.monitor → row.connector = other.connector
  monitor : ∀ row ∈ live, ∀ other ∈ live, ∀ name, row.connector = some name → other.connector = some name → row.monitor = other.monitor
  nonempty : ∀ row ∈ live, row.connector ≠ some ""

/-- The monitors of a desktop: distinct numbers, and the name of every output its own. -/
structure LiveMonitors (s : WMState) (outputKeyForMonitor : MonitorKey → Option String) : Prop where
  nonneg : ∀ k m, s.monitors.get? k = some m → 0 ≤ m.num
  numbers : ∀ k m k' m', s.monitors.get? k = some m → s.monitors.get? k' = some m' → m.num = m'.num → k = k'
  names : ∀ k m k' m' name, s.monitors.get? k = some m → s.monitors.get? k' = some m' → outputKeyForMonitor k = some name →
    outputKeyForMonitor k' = some name → k = k'
  nonempty : ∀ k m, s.monitors.get? k = some m → outputKeyForMonitor k ≠ some ""

section

variable {s : WMState} {tagsLength : Nat} {defaults : LayoutDefaults} {outputKeyForMonitor : MonitorKey → Option String}

/-- The rows are those of the tags that the listed monitors keep a layout for. -/
theorem mem_layoutTagEntries {row : LayoutTagRow} : row ∈ layoutTagEntries s tagsLength defaults outputKeyForMonitor ↔
    ∃ k ∈ s.monitorOrder, ∃ m p tag layout, s.monitors.get? k = some m ∧ m.pertag = some p ∧ tag ≤ tagsLength ∧
      p.lts[tag]? = some layout ∧ row = layoutTagEntry defaults m p (outputKeyForMonitor k) tag layout := by
  constructor
  · intro h
    obtain ⟨k, hk, h⟩ := mem_flatMap.1 h
    rcases hm : s.monitors.get? k with _ | m
    · rw [hm] at h
      exact absurd h not_mem_nil
    · rw [hm] at h
      dsimp only at h
      rcases hp : m.pertag with _ | p
      · rw [hp] at h
        exact absurd h not_mem_nil
      · rw [hp] at h
        obtain ⟨tag, htag, h⟩ := mem_filterMap.1 h
        obtain ⟨layout, hlayout, rfl⟩ := map_eq_some_iff.1 h
        exact ⟨k, hk, m, p, tag, layout, hm, hp, Nat.lt_succ_iff.1 (mem_range.1 htag), hlayout, rfl⟩
  · rintro ⟨k, hk, m, p, tag, layout, hm, hp, htag, hlayout, rfl⟩
    refine mem_flatMap.2 ⟨k, hk, ?_⟩
    rw [hm]
    dsimp only
    rw [hp]
    exact mem_filterMap.2 ⟨tag, mem_range.2 (Nat.lt_succ_iff.2 htag), by rw [hlayout, map_some]⟩

theorem liveRows_layoutTagEntries (tagsLength : Nat) (defaults : LayoutDefaults) (h : LiveMonitors s outputKeyForMonitor) :
    LiveRows (layoutTagEntries s tagsLength defaults outputKeyForMonitor) := by
  constructor
  · intro row hrow
    obtain ⟨k, -, m, p, tag, layout, hm, -, -, -, rfl⟩ := mem_layoutTagEntries.1 hrow
    exact h.nonneg k m hm
  · intro row hrow other hother hkey
    obtain ⟨k, -, m, p, tag, layout, hm, hp, -, hl, rfl⟩ := mem_layoutTagEntries.1 hrow
    obtain ⟨k', -, m', p', tag', layout', hm', hp', -, hl', rfl⟩ := mem_layoutTagEntries.1 hother
    unfold LayoutTagRow.key at hkey
    rw [toLex_inj, Prod.mk.injEq] at hkey
    obtain ⟨hnum, htag⟩ := hkey
    obtain rfl := h.numbers k m k' m' hm hm' hnum
    obtain rfl : m = m' := some.inj (hm.symm.trans hm')
    obtain rfl : p = p' := some.inj (hp.symm.trans hp')
    obtain rfl : tag = tag' := htag
    obtain rfl : layout = layout' := some.inj (hl.symm.trans hl')
    rfl
  · intro row hrow other hother hnum
    obtain ⟨k, -, m, p, tag, layout, hm, -, -, -, rfl⟩ := mem_layoutTagEntries.1 hrow
    obtain ⟨k', -, m', p', tag', layout', hm', -, -, -, rfl⟩ := mem_layoutTagEntries.1 hother
    obtain rfl := h.numbers k m k' m' hm hm' hnum
    rfl
  · intro row hrow other hother name hname hname'
    obtain ⟨k, -, m, p, tag, layout, hm, -, -, -, rfl⟩ := mem_layoutTagEntries.1 hrow
    obtain ⟨k', -, m', p', tag', layout', hm', -, -, -, rfl⟩ := mem_layoutTagEntries.1 hother
    obtain rfl := h.names k m k' m' name hm hm' hname hname'
    obtain rfl : m = m' := some.inj (hm.symm.trans hm')
    rfl
  · intro row hrow
    obtain ⟨k, -, m, p, tag, layout, hm, -, -, -, rfl⟩ := mem_layoutTagEntries.1 hrow
    exact h.nonempty k m hm

end

/-! ## What a monitor finds -/

/-- A stored row that the lookup meets before the row of a live monitor: one for any monitor that names the output, or, for an output
without a name, one of its number that names an output which is not live. -/
inductive Shadowed (existing live : List LayoutTagRow) (row : LayoutTagRow) : Prop where
  | wildcard (stored : LayoutTagRow) (name : String) : stored ∈ existing → stored.tag = row.tag → stored.monitor < 0 →
      row.connector = some name → stored.connector = some name → Shadowed existing live row
  | offline (stored : LayoutTagRow) (name : String) : stored ∈ existing → stored.tag = row.tag → stored.monitor = row.monitor →
      row.connector = none → stored.named = some name → (∀ other ∈ live, other.named ≠ some name) → Shadowed existing live row

section

variable {existing live : List LayoutTagRow} {row stored : LayoutTagRow} {name : String}

theorem mem_mergeLayoutTagEntries :
    stored ∈ mergeLayoutTagEntries existing live ↔ (stored ∈ existing ∧ keepsRow live stored = true) ∨ stored ∈ live := by
  unfold mergeLayoutTagEntries
  rw [mem_sortByKey, mem_append, mem_filter]

theorem named_eq_some (hne : name ≠ "") : stored.named = some name ↔ stored.connector = some name := by
  unfold LayoutTagRow.named
  rw [filter_eq_some_iff]
  constructor
  · exact fun h => h.1
  · exact fun h => ⟨h, bne_iff_ne.2 hne⟩

theorem connector_ne_none_of_named (h : stored.named = some name) : stored.connector ≠ none := by
  intro hnone
  unfold LayoutTagRow.named at h
  rw [hnone] at h
  cases h

/-- Among the rows that are kept, a number that is live is only that of rows of other outputs. -/
theorem keepsRow_iff (hpos : 0 ≤ stored.monitor) : keepsRow live stored = true ↔
    (∃ name, stored.named = some name ∧ ∀ other ∈ live, other.named ≠ some name) ∨
      (stored.named = none ∧ ∀ other ∈ live, other.monitor ≠ stored.monitor) := by
  unfold keepsRow
  rw [if_neg (by omega)]
  cases hnamed : stored.named with
  | none | some name => simp [List.any_eq_false]

theorem keepsRow_wildcard (h : stored.monitor < 0) : keepsRow live stored = true := if_pos h

theorem key_le_key (h : stored.key ≤ row.key) : stored.monitor ≤ row.monitor := by
  unfold LayoutTagRow.key at h
  rw [Prod.Lex.toLex_le_toLex] at h
  rcases h with h | ⟨h, -⟩
  · exact h.le
  · exact h.le

theorem find?_name (tags : List LayoutTagRow) (tag : Nat) (name : String) :
    (tags.filter (·.tag == tag)).find? (·.connector == some name) =
      tags.find? fun e => e.tag == tag && e.connector == some name := by
  rw [find?_filter]
  congr 1
  funext e
  rw [Bool.eq_iff_iff]
  simp

theorem find?_number (tags : List LayoutTagRow) (row : LayoutTagRow) :
    (tags.filter (·.tag == row.tag)).find? (numbered row.monitor none) = tags.find? fun e => decide (e.key = row.key) := by
  rw [find?_filter]
  congr 1
  funext e
  unfold numbered LayoutTagRow.key
  cases e.connector <;> simp [and_comm]

variable {tags : List LayoutTagRow} {found : LayoutTagRow}

theorem layoutForTagOnOutput_named {monitor : Int} {tag : Nat} (hne : name ≠ "")
    (h : (tags.find? fun e => e.tag == tag && e.connector == some name) = some found) :
    layoutForTagOnOutput tags monitor tag (some name) = some found := by
  unfold layoutForTagOnOutput
  dsimp only
  rw [filter_some, if_pos (bne_iff_ne.2 hne), bind_some, find?_name, h]
  rfl

theorem layoutForTagOnOutput_nameless (h : (tags.find? fun e => decide (e.key = row.key)) = some found) :
    layoutForTagOnOutput tags row.monitor row.tag none = some found := by
  unfold layoutForTagOnOutput
  dsimp only
  rw [filter_none, bind_none, none_or, find?_number, h]
  rfl

section

variable (hlive : LiveRows live) (hrow : row ∈ live)
include hlive hrow

theorem lookup_named_iff (hname : row.connector = some name) :
    layoutForTagOnOutput (mergeLayoutTagEntries existing live) row.monitor row.tag (some name) = some row ↔
      ¬ Shadowed existing live row := by
  have hne : name ≠ "" := fun h => hlive.nonempty row hrow (h ▸ hname)
  have hmatch : ∀ e : LayoutTagRow, (e.tag == row.tag && e.connector == some name) = true ↔ e.tag = row.tag ∧ e.connector = some name := by
    intro e
    rw [Bool.and_eq_true, beq_iff_eq, beq_iff_eq]
  obtain ⟨found, hfound⟩ : ∃ found, ((mergeLayoutTagEntries existing live).find? fun e => e.tag == row.tag && e.connector == some name) =
      some found := by
    rw [← isSome_iff_exists, find?_isSome]
    exact ⟨row, mem_mergeLayoutTagEntries.2 (.inr hrow), (hmatch row).2 ⟨rfl, hname⟩⟩
  rw [layoutForTagOnOutput_named hne hfound, some.injEq]
  obtain ⟨htag, hconnector⟩ := (hmatch found).1 (by simpa using find?_some hfound)
  constructor
  · rintro rfl hshadowed
    rcases hshadowed with ⟨stored, name', hmem, htag', hneg, hrow', hstored⟩ | ⟨_, _, _, _, _, hnone, _⟩
    · obtain rfl : name' = name := some.inj (hrow'.symm.trans hname)
      have hle := key_le_key (find?_sortByKey_le hfound
        (mem_append_left _ (mem_filter.2 ⟨hmem, keepsRow_wildcard hneg⟩)) ((hmatch stored).2 ⟨htag', hstored⟩))
      have := hlive.nonneg found hrow
      omega
    · rw [hname] at hnone
      cases hnone
  · intro hnot
    rcases mem_mergeLayoutTagEntries.1 (mem_of_find?_eq_some hfound) with ⟨hmem, hkept⟩ | hmem
    · rcases Int.lt_or_le found.monitor 0 with hneg | hpos
      · exact absurd (Shadowed.wildcard found name hmem htag hneg hname hconnector) hnot
      · rcases (keepsRow_iff hpos).1 hkept with ⟨other, hother, hfree⟩ | ⟨hnone, -⟩
        · rw [(named_eq_some hne).2 hconnector, some.injEq] at hother
          subst hother
          exact absurd ((named_eq_some hne).2 hname) (hfree row hrow)
        · rw [(named_eq_some hne).2 hconnector] at hnone
          cases hnone
    · refine hlive.unique found hmem row hrow ?_
      unfold LayoutTagRow.key
      rw [hlive.monitor found hmem row hrow name hconnector hname, htag]

/-- An output without a name finds its row unless one of another output has its number. -/
theorem lookup_nameless_iff (hname : row.connector = none) :
    layoutForTagOnOutput (mergeLayoutTagEntries existing live) row.monitor row.tag none = some row ↔
      ¬ Shadowed existing live row := by
  have hpos := hlive.nonneg row hrow
  -- a kept row with the number of a live one names an output that is not live
  have hkept : ∀ e : LayoutTagRow, e.key = row.key → keepsRow live e = true →
      ∃ name, e.named = some name ∧ ∀ other ∈ live, other.named ≠ some name := by
    intro e hkey hkeep
    unfold LayoutTagRow.key at hkey
    rw [toLex_inj, Prod.mk.injEq] at hkey
    rcases (keepsRow_iff (by omega)).1 hkeep with h | ⟨-, hfree⟩
    · exact h
    · exact absurd hkey.1.symm (hfree row hrow)
  obtain ⟨found, hfound⟩ : ∃ found, ((mergeLayoutTagEntries existing live).find? fun e => decide (e.key = row.key)) = some found := by
    rw [← isSome_iff_exists, find?_isSome]
    exact ⟨row, mem_mergeLayoutTagEntries.2 (.inr hrow), decide_eq_true rfl⟩
  rw [layoutForTagOnOutput_nameless hfound, some.injEq]
  have hkey : found.key = row.key := by simpa using find?_some hfound
  have hhead : ((existing.filter (keepsRow live)).filter (fun e => decide (e.key = row.key)) ++
      live.filter fun e => decide (e.key = row.key)).head? = some found := by
    rw [← filter_append, ← filter_key_sortByKey, head?_filter]
    exact hfound
  constructor
  · rintro rfl hshadowed
    rcases hshadowed with ⟨_, _, _, _, _, hrow', _⟩ | ⟨stored, name, hmem, htag, hnum, -, hstored, hfree⟩
    · rw [hname] at hrow'
      cases hrow'
    · have hstored' : stored ∈ (existing.filter (keepsRow live)).filter fun e => decide (e.key = found.key) := by
        refine mem_filter.2 ⟨mem_filter.2 ⟨hmem, (keepsRow_iff (by omega)).2 (.inl ⟨name, hstored, hfree⟩)⟩, ?_⟩
        rw [decide_eq_true_eq]
        unfold LayoutTagRow.key
        rw [hnum, htag]
      rcases hlist : (existing.filter (keepsRow live)).filter (fun e => decide (e.key = found.key)) with _ | ⟨first, rest⟩
      · rw [hlist] at hstored'
        cases hstored'
      · rw [hlist] at hhead
        obtain rfl : first = found := some.inj hhead
        have hfirst : first ∈ (existing.filter (keepsRow live)).filter (fun e => decide (e.key = first.key)) := by
          rw [hlist]
          exact mem_cons_self ..
        obtain ⟨other, hother, -⟩ := hkept first rfl (mem_filter.1 (mem_filter.1 hfirst).1).2
        exact connector_ne_none_of_named hother hname
  · intro hnot
    rcases mem_mergeLayoutTagEntries.1 (mem_of_find?_eq_some hfound) with ⟨hmem, hkeep⟩ | hmem
    · obtain ⟨name, hstored, hfree⟩ := hkept found hkey hkeep
      unfold LayoutTagRow.key at hkey
      rw [toLex_inj, Prod.mk.injEq] at hkey
      exact absurd (Shadowed.offline found name hmem hkey.2 hkey.1 hname hstored hfree) hnot
    · exact hlive.unique found hmem row hrow hkey

theorem keepsRow_live : keepsRow live row = false := by
  have hpos := hlive.nonneg row hrow
  rw [Bool.eq_false_iff, Ne, keepsRow_iff hpos]
  rintro (⟨name, hname, hfree⟩ | ⟨-, hfree⟩)
  · exact hfree row hrow hname
  · exact hfree row hrow rfl

end

/-- Merging the same rows again finds the kept ones kept, and the live ones replaced by themselves. -/
theorem merge_again (existing : List LayoutTagRow) (hlive : LiveRows live) :
    mergeLayoutTagEntries (mergeLayoutTagEntries existing live) live = mergeLayoutTagEntries existing live := by
  have hkept : (existing.filter (keepsRow live)).filter (keepsRow live) = existing.filter (keepsRow live) := by
    rw [List.filter_filter]
    simp only [Bool.and_self]
  have hnone : live.filter (keepsRow live) = [] := by
    rw [filter_eq_nil_iff]
    intro row hrow
    rw [keepsRow_live hlive hrow]
    exact Bool.false_ne_true
  unfold mergeLayoutTagEntries
  rw [sortByKey_filter, filter_append, hkept, hnone, append_nil, sortByKey_append]

/-- A stored row for any monitor, or of an output that is not live. -/
def ownedElsewhere (live : List LayoutTagRow) (row : LayoutTagRow) : Bool :=
  decide (row.monitor < 0) || row.named.any fun connector => live.all fun other => other.named != some connector

theorem keepsRow_of_ownedElsewhere (h : ownedElsewhere live row = true) : keepsRow live row = true := by
  unfold ownedElsewhere at h
  rcases Int.lt_or_le row.monitor 0 with hneg | hpos
  · exact keepsRow_wildcard hneg
  · rw [decide_eq_false (by omega), Bool.false_or, Option.any_eq_true] at h
    obtain ⟨name, hname, hfree⟩ := h
    refine (keepsRow_iff hpos).2 (.inl ⟨name, hname, fun other hother => ?_⟩)
    exact bne_iff_ne.1 (all_eq_true.1 hfree other hother)

theorem merge_keeps (existing live : List LayoutTagRow) :
    (existing.filter (ownedElsewhere live)).Subperm (mergeLayoutTagEntries existing live) := by
  have hsub : (existing.filter (ownedElsewhere live)).Sublist (existing.filter (keepsRow live)) :=
    monotone_filter_right existing fun _ => keepsRow_of_ownedElsewhere
  exact (hsub.trans (sublist_append_left _ _)).subperm.trans (sortByKey_perm _ _).symm.subperm

end

/-- What saving the layouts of the live monitors is for. -/
structure SavedLayoutsReturn (existing live : List LayoutTagRow) : Prop where
  found : ∀ row ∈ live,
    layoutForTagOnOutput (mergeLayoutTagEntries existing live) row.monitor row.tag row.connector = some row
  kept : (existing.filter (ownedElsewhere live)).Subperm (mergeLayoutTagEntries existing live)
  again : mergeLayoutTagEntries (mergeLayoutTagEntries existing live) live = mergeLayoutTagEntries existing live

/-- Each monitor finds its own rows unless a kept row shadows one. The rows that a save keeps are safe, and saving again changes
nothing, whatever was stored. -/
theorem saved_layouts_return_iff (existing : List LayoutTagRow) (s : WMState) (tagsLength : Nat) (defaults : LayoutDefaults)
    (outputKeyForMonitor : MonitorKey → Option String) (h : LiveMonitors s outputKeyForMonitor) :
    let live := layoutTagEntries s tagsLength defaults outputKeyForMonitor
    (SavedLayoutsReturn existing live ↔ ∀ row ∈ live, ¬ Shadowed existing live row) ∧
      (existing.filter (ownedElsewhere live)).Subperm (mergeLayoutTagEntries existing live) ∧
      mergeLayoutTagEntries (mergeLayoutTagEntries existing live) live = mergeLayoutTagEntries existing live := by
  intro live
  have hlive : LiveRows live := liveRows_layoutTagEntries tagsLength defaults h
  have hlookup : ∀ row ∈ live, layoutForTagOnOutput (mergeLayoutTagEntries existing live) row.monitor row.tag row.connector =
      some row ↔ ¬ Shadowed existing live row := by
    intro row hrow
    rcases hname : row.connector with _ | name
    · exact lookup_nameless_iff hlive hrow hname
    · exact lookup_named_iff hlive hrow hname
  refine ⟨⟨fun hreturn row hrow => ?_, fun hclear => ?_⟩, merge_keeps existing live, merge_again existing hlive⟩
  · exact (hlookup row hrow).1 (hreturn.found row hrow)
  · constructor
    · intro row hrow
      exact (hlookup row hrow).2 (hclear row hrow)
    · exact merge_keeps existing live
    · exact merge_again existing hlive

namespace Sample

def oneMonitor : WMState where
  clients := .empty
  monitors := KeyMap.empty.insert ⟨0, 1⟩ { WMMonitor.new with pertag := some (Pertag.new true 9) }
  monitorClients := .empty
  monitorStack := .empty
  monitorOrder := [⟨0, 1⟩]

theorem get?_oneMonitor {k : MonitorKey} {m : WMMonitor} (h : oneMonitor.monitors.get? k = some m) :
    k = ⟨0, 1⟩ ∧ m = { WMMonitor.new with pertag := some (Pertag.new true 9) } := by
  unfold oneMonitor at h
  rw [KeyMap.get?_insert] at h
  split at h
  · rename_i hk
    exact ⟨hk, (some.inj h).symm⟩
  · rw [KeyMap.get?_empty] at h
    cases h

theorem liveMonitors_oneMonitor : LiveMonitors oneMonitor fun _ => some "DP-1" := by
  constructor
  · intro k m hm
    obtain ⟨-, rfl⟩ := get?_oneMonitor hm
    decide
  · intro k m k' m' hm hm' _
    rw [(get?_oneMonitor hm).1, (get?_oneMonitor hm').1]
  · intro k m k' m' name hm hm' _ _
    rw [(get?_oneMonitor hm).1, (get?_oneMonitor hm').1]
  · intro k m _
    decide

def handWritten (monitor : Int) (connector : String) : LayoutTagRow where
  tag := 1
  monitor := monitor
  connector := some connector
  layout := "grid"
  alt := ""
  nMaster := none
  mFact := none
  gap := none
  showBar := none

end Sample

/-- The rows of an unplugged output do not shadow those of the output that has its number now. -/
theorem saved_layouts_return_renumbered :
    SavedLayoutsReturn [Sample.handWritten 0 "HDMI-1"]
      (layoutTagEntries Sample.oneMonitor 9 WMMonitor.new.layoutDefaults fun _ => some "DP-1") := by
  refine (saved_layouts_return_iff _ _ 9 _ _ Sample.liveMonitors_oneMonitor).1.2 fun row hrow hshadowed => ?_
  rcases hshadowed with ⟨stored, name, hmem, -, hneg, -, -⟩ | ⟨_, _, _, _, _, hnone, _⟩
  · obtain rfl := mem_singleton.1 hmem
    exact absurd hneg (by decide)
  · obtain ⟨k, -, m, p, tag, layout, -, -, -, -, rfl⟩ := mem_layoutTagEntries.1 hrow
    cases hnone

/-- A hand-written row for any monitor that names the output hides what the output saved. -/
theorem wildcard_with_connector_hides_saved :
    ¬ SavedLayoutsReturn [Sample.handWritten (-1) "DP-1"]
      (layoutTagEntries Sample.oneMonitor 9 WMMonitor.new.layoutDefaults fun _ => some "DP-1") := by
  obtain ⟨row, hrow, htag, hname⟩ : ∃ row ∈ layoutTagEntries Sample.oneMonitor 9 WMMonitor.new.layoutDefaults fun _ => some "DP-1",
      row.tag = 1 ∧ row.connector = some "DP-1" :=
    ⟨_, mem_layoutTagEntries.2 ⟨⟨0, 1⟩, mem_singleton.2 rfl, _, _, 1, .fibonacci, rfl, rfl, by decide, rfl, rfl⟩, rfl, rfl⟩
  intro hreturn
  have hfound := hreturn.found row hrow
  rw [hname] at hfound
  refine (lookup_named_iff (liveRows_layoutTagEntries 9 _ Sample.liveMonitors_oneMonitor) hrow hname).1 hfound ?_
  exact Shadowed.wildcard (Sample.handWritten (-1) "DP-1") "DP-1" (mem_singleton.2 rfl) htag.symm (by decide) hname rfl

end Jwm
