/-
Edits of the scrolling strip: the sync with the visible windows (`jwm/layout/implementations.rs`) and the column commands
(`jwm/layout/scrolling.rs`).
-/
import Jwm.Core.Scrolling
import Mathlib.Data.List.Nodup

namespace Jwm

open List Option

variable {col : List ClientKey} {α : Type} {l : List α} {n : Nat}

namespace ScrollingState

/-! ## Commands -/

/-- `sync_scrolling_columns`, with the clients it reports as new. -/
def syncScrollingColumns (st : ScrollingState) (visibleClients : List ClientKey) : ScrollingState × List ClientKey :=
  let st := st.ensureColumnMetadata
  let st : ScrollingState :=
    { st with columns := st.columns.map fun col => col.filter fun k => visibleClients.contains k }
  let st := st.retainNonEmptyColumns
  let newClients := visibleClients.filter fun k => !st.columns.flatten.contains k
  (newClients.foldl insertNewClient st, newClients)

/-- `scrolling_toggle_attach_mode` on the strip of the selected monitor. -/
def toggleAttachMode (st : ScrollingState) (sel : Option ClientKey) : ScrollingState :=
  let st := match sel with
    | some selKey => st.rememberFocus selKey
    | none => st
  { st with attachNewWindowsToFocusedColumn := !st.attachNewWindowsToFocusedColumn }

/-- The column next to `curCol` in `direction`, if there is one. -/
def adjacentColumn (st : ScrollingState) (curCol : Nat) (direction : Int) : Option Nat :=
  if direction > 0 then
    if curCol + 1 ≥ st.columns.length then none else some (curCol + 1)
  else
    if curCol = 0 then none else some (curCol - 1)

/-- `scrolling_move_column`: swap the selected window's column with its neighbour. -/
def moveColumn (st : ScrollingState) (sel : Option ClientKey) (direction : Int) : ScrollingState :=
  if direction = 0 then st
  else
    match sel.bind fun k => st.columns.findIdx? (·.contains k) with
    | none => st
    | some curCol =>
      match st.adjacentColumn curCol direction with
      | none => st
      | some newCol =>
        let st := st.ensureColumnMetadata
        let st := { st with
          columns := swapAt st.columns curCol newCol
          columnWidthFactors := swapAt st.columnWidthFactors curCol newCol
          focusedClients := swapAt st.focusedClients curCol newCol }
        st.setFocusedColumn newCol

def findClient (st : ScrollingState) (key : ClientKey) : Option (Nat × Nat) :=
  st.columns.zipIdx.findSome? fun (col, ci) => (col.idxOf? key).map fun pos => (ci, pos)

/-- `scrolling_consume`: merge the selected window into the neighbouring column. -/
def consume (st : ScrollingState) (sel : Option ClientKey) (direction : Int) : ScrollingState :=
  if direction = 0 then st
  else
    match sel with
    | none => st
    | some selKey =>
      let st := st.rememberFocus selKey
      match st.findClient selKey with
      | none => st
      | some (curCol, curPos) =>
        match st.adjacentColumn curCol direction with
        | none => st
        | some targetCol =>
          let columns := st.columns.modify curCol (·.eraseIdx curPos)
          let columns := columns.modify targetCol (· ++ [selKey])
          (rememberFocus { st with columns := columns } selKey).retainNonEmptyColumns

/-- `scrolling_expel`: move the selected window out of its column into one of its own. -/
def expel (st : ScrollingState) (sel : Option ClientKey) (direction : Int) : ScrollingState :=
  if direction = 0 then st
  else
    match sel with
    | none => st
    | some selKey =>
      match st.findClient selKey with
      | none => st
      | some (curCol, curPos) =>
        if (st.columns.getD curCol []).length ≤ 1 then st
        else
          let st := st.ensureColumnMetadata
          let columns := st.columns.modify curCol (·.eraseIdx curPos)
          let curWidth := st.columnWidthFactors[curCol]?.getD 1.0
          let insertIdx := if direction > 0 then curCol + 1 else curCol
          let st := { st with
            columns := columns.insertIdx insertIdx [selKey]
            columnWidthFactors := st.columnWidthFactors.insertIdx insertIdx curWidth
            focusedClients := st.focusedClients.insertIdx insertIdx (some selKey) }
          st.setFocusedColumn insertIdx

/-! ## The invariant -/

/-- One column per window and one entry of every vector per column. -/
structure Ok (st : ScrollingState) : Prop where
  nodup : st.columns.flatten.Nodup
  nonempty : [] ∉ st.columns
  widths : st.columnWidthFactors.length = st.columns.length
  focuses : st.focusedClients.length = st.columns.length
  focused : ∀ i, st.focusedColumn = some i → i < st.columns.length

variable {st : ScrollingState}

theorem new_ok : Ok new := ⟨nodup_nil, not_mem_nil, rfl, rfl, fun _ h => by cases h⟩

theorem Ok.ensure_eq (h : Ok st) : st.ensureColumnMetadata = st := by
  unfold ensureColumnMetadata
  rw [← h.widths, resize_self, take_length, h.widths, ← h.focuses, resize_self, take_length]

theorem Ok.targetForColumn_mem (h : Ok st) {i : Nat} (hc : st.columns[i]? = some col) :
    ∃ k ∈ col, st.targetForColumn i = some k := by
  have hne : col ≠ [] := fun e => h.nonempty (e ▸ mem_of_getElem? hc)
  unfold targetForColumn
  rw [hc, bind_some]
  cases hf : st.focusedClients[i]?.bind fun focus => focus.filter (col.contains ·) with
  | some k =>
    obtain ⟨focus, -, hk⟩ := bind_eq_some_iff.1 hf
    obtain ⟨-, hk⟩ := filter_eq_some_iff.1 hk
    exact ⟨k, by simpa using hk, rfl⟩
  | none =>
    cases col with
    | nil => exact absurd rfl hne
    | cons k col => exact ⟨k, mem_cons_self .., rfl⟩

/-! ## Focus -/

theorem rememberFocus_columns (st : ScrollingState) (key : ClientKey) : (st.rememberFocus key).columns = st.columns := by
  unfold rememberFocus
  simp only
  split <;> rfl

theorem Ok.rememberFocus (h : Ok st) (key : ClientKey) : Ok (st.rememberFocus key) := by
  unfold ScrollingState.rememberFocus
  rw [h.ensure_eq]
  simp only
  split
  · rename_i i hi
    refine ⟨h.nodup, h.nonempty, h.widths, ?_, ?_⟩
    · rw [length_set]; exact h.focuses
    · rintro _ ⟨⟩
      exact (findIdx?_eq_some_iff_getElem.1 hi).1
  · exact h

theorem Ok.setFocusedColumn (h : Ok st) (i : Nat) : Ok (st.setFocusedColumn i) := by
  unfold ScrollingState.setFocusedColumn
  split
  · rename_i hi
    exact ⟨h.nodup, h.nonempty, h.widths, h.focuses, fun j hj => by cases hj; exact hi⟩
  · exact h

theorem Ok.toggleAttachMode (h : Ok st) (sel : Option ClientKey) : Ok (st.toggleAttachMode sel) := by
  have keep : ∀ {st : ScrollingState} (b : Bool), Ok st → Ok { st with attachNewWindowsToFocusedColumn := b } :=
    fun _ h => ⟨h.nodup, h.nonempty, h.widths, h.focuses, h.focused⟩
  cases sel with
  | none => exact keep _ h
  | some key => exact keep _ (h.rememberFocus key)

/-! ## Dropping empty columns -/

/-- A column with its width factor and remembered window. -/
abbrev Row := List ClientKey × Float32 × Option ClientKey

/-- The remembered window if it still stands in the column, else the first one. -/
def Row.focus (row : Row) : Option ClientKey := (row.2.2.filter (row.1.contains ·)).or row.1.head?

/-- The rows with windows, each with its old index. -/
def keptRows (rows : List Row) (start : Nat) : List (Row × Nat) := (rows.zipIdx start).filter (!·.1.1.isEmpty)

/-- The strip as one vector, the other two padded or cut to the columns. -/
def zipped (st : ScrollingState) : List Row :=
  st.columns.zip
    ((resize st.columnWidthFactors st.columns.length 1.0).zip (resize st.focusedClients st.columns.length none))

def kept (st : ScrollingState) : List (Row × Nat) := keptRows st.zipped 0

/-- The strip rebuilt from the rows with windows. The focus follows its column, or falls on the first one with a window. -/
def rebuilt (st : ScrollingState) : ScrollingState :=
  let focuses := st.kept.map (·.1.focus)
  { st with
    columns := st.kept.map (·.1.1)
    columnWidthFactors := st.kept.map (·.1.2.1)
    focusedClients := focuses
    focusedColumn := (st.kept.findIdx? (st.focusedColumn = some ·.2)).or (focuses.findIdx? (·.isSome)) }

theorem take_set_self (h : n < l.length) (a : α) : (l.set n a).take (n + 1) = l.take n ++ [a] := by
  rw [take_add_one, take_set_of_le (Nat.le_refl n), getElem?_set_self h]
  rfl

theorem drop_cons {rest : List α} {a : α} (h : l.drop n = a :: rest) : l[n]? = some a ∧ l.drop (n + 1) = rest ∧ n < l.length := by
  have hn : n < l.length := by
    by_contra hn
    rw [drop_of_length_le (by omega)] at h
    cases h
  rw [drop_eq_getElem_cons hn, cons.injEq] at h
  exact ⟨by rw [getElem?_eq_getElem hn, h.1], h.2, hn⟩

/-- What is written never reaches a row still to be read: `retained_len` stays behind `old_idx`. -/
theorem retain_rows (f : Option Nat) : ∀ (rows : List Row) (c : Compaction), c.retainedLen ≤ c.oldIdx →
    c.widths.drop c.oldIdx = rows.map (·.2.1) → c.focuses.drop c.oldIdx = rows.map (·.2.2) →
    let r := Compaction.retain f (rows.map (·.1)) c
    r.1 = (keptRows rows c.oldIdx).map (·.1.1) ∧
    r.2.widths.take r.2.retainedLen = c.widths.take c.retainedLen ++ (keptRows rows c.oldIdx).map (·.1.2.1) ∧
    r.2.focuses.take r.2.retainedLen = c.focuses.take c.retainedLen ++ (keptRows rows c.oldIdx).map (·.1.focus) ∧
    r.2.retainedFocusedColumn = (((keptRows rows c.oldIdx).findIdx? (f = some ·.2)).map (c.retainedLen + ·)).or
      c.retainedFocusedColumn
  | [], c, _, _, _ => by simp [Compaction.retain, keptRows]
  | row :: rows, c, hle, hw, hf => by
    obtain ⟨hwidth, hws, hlenw⟩ := drop_cons hw
    obtain ⟨hfocus, hfs, hlenf⟩ := drop_cons hf
    have ih := retain_rows f rows (c.visit f row.1).2
    simp only [map_cons, Compaction.retain]
    cases hrow : row.1.isEmpty with
    | true =>
      have hkept : keptRows (row :: rows) c.oldIdx = keptRows rows (c.oldIdx + 1) := by
        simp [keptRows, zipIdx_cons, hrow]
      simp only [Compaction.visit, hrow, if_true] at ih ⊢
      rw [hkept]
      exact ih (by omega) hws hfs
    | false =>
      have hkept : keptRows (row :: rows) c.oldIdx = (row, c.oldIdx) :: keptRows rows (c.oldIdx + 1) := by
        simp [keptRows, zipIdx_cons, hrow]
      simp only [Compaction.visit, hrow, Bool.false_eq_true, if_false, getD_eq_getElem?_getD, hwidth, hfocus,
        getD_some] at ih ⊢
      obtain ⟨h0, h1, h2, h3⟩ := ih (by omega) (by rw [drop_set_of_lt (by omega), hws])
        (by rw [drop_set_of_lt (by omega), hfs])
      rw [hkept, h0, h1, h2, h3, take_set_self (by omega), take_set_self (by omega)]
      refine ⟨rfl, by simp, by simp [Row.focus], ?_⟩
      rw [findIdx?_cons]
      by_cases hold : f = some c.oldIdx
      · -- the old index comes once
        have hnone : (keptRows rows (c.oldIdx + 1)).findIdx? (f = some ·.2) = none := by
          rw [findIdx?_eq_none_iff]
          rintro ⟨other, i⟩ hi
          have := le_snd_of_mem_zipIdx (mem_filter.1 hi).1
          simp only [hold, some.injEq, decide_eq_false_iff_not]
          omega
        rw [hnone, if_pos (decide_eq_true hold), if_pos hold]
        rfl
      · simp only [hold, decide_false, if_false, Bool.false_eq_true, Option.map_map]
        congr 2
        funext i
        simp only [Function.comp]
        omega

theorem zipped_columns (st : ScrollingState) : st.zipped.map (·.1) = st.columns :=
  map_fst_zip (by simp)

theorem retain_kept (st : ScrollingState) :
    let r := Compaction.retain st.focusedColumn st.columns
      { oldIdx := 0, retainedLen := 0, retainedFocusedColumn := none, widths := st.ensureColumnMetadata.columnWidthFactors,
        focuses := st.ensureColumnMetadata.focusedClients }
    r.1 = st.kept.map (·.1.1) ∧ r.2.widths.take r.2.retainedLen = st.kept.map (·.1.2.1) ∧
    r.2.focuses.take r.2.retainedLen = st.kept.map (·.1.focus) ∧
    r.2.retainedFocusedColumn = st.kept.findIdx? (st.focusedColumn = some ·.2) := by
  have hsnd : st.zipped.map (·.2) = _ := map_snd_zip (by simp)
  have hw : st.zipped.map (·.2.1) = st.ensureColumnMetadata.columnWidthFactors := by
    calc st.zipped.map (·.2.1) = (st.zipped.map (·.2)).map (·.1) := map_map.symm
      _ = (resize st.columnWidthFactors st.columns.length 1.0).take st.columns.length := by
        rw [hsnd, map_fst_zip (by simp), take_of_length_le (by simp)]
  have hf : st.zipped.map (·.2.2) = st.ensureColumnMetadata.focusedClients := by
    calc st.zipped.map (·.2.2) = (st.zipped.map (·.2)).map (·.2) := map_map.symm
      _ = (resize st.focusedClients st.columns.length none).take st.columns.length := by
        rw [hsnd, map_snd_zip (by simp), take_of_length_le (by simp)]
  have h := retain_rows st.focusedColumn st.zipped
    { oldIdx := 0, retainedLen := 0, retainedFocusedColumn := none, widths := st.ensureColumnMetadata.columnWidthFactors,
      focuses := st.ensureColumnMetadata.focusedClients } (Nat.le_refl 0) hw.symm hf.symm
  simpa only [kept, zipped_columns, take_zero, nil_append, Nat.zero_add, Option.map_id', or_none] using h

theorem retainNonEmptyColumns_flatten (st : ScrollingState) :
    st.retainNonEmptyColumns.columns.flatten = st.columns.flatten := by
  calc st.retainNonEmptyColumns.columns.flatten = (st.kept.map (·.1.1)).flatten := congrArg _ (retain_kept st).1
    _ = (st.columns.filter (!·.isEmpty)).flatten := by
      have hcols : (st.zipped.zipIdx 0).map (·.1.1) = st.columns := by
        calc _ = ((st.zipped.zipIdx 0).map (·.1)).map (·.1) := map_map.symm
          _ = st.columns := by rw [zipIdx_map_fst, zipped_columns]
      rw [← hcols, List.filter_map]
      rfl
    _ = st.columns.flatten := flatten_filter_not_isEmpty

theorem retainNonEmptyColumns_ok (hn : st.columns.flatten.Nodup) : Ok st.retainNonEmptyColumns := by
  obtain ⟨h0, h1, h2, -⟩ := retain_kept st
  have hlen : st.retainNonEmptyColumns.columns.length = st.kept.length := (congrArg length h0).trans (length_map _)
  refine ⟨?_, ?_, ?_, ?_, fun i hi => of_decide_eq_true (filter_eq_some_iff.1 hi).2⟩
  · rw [retainNonEmptyColumns_flatten]
    exact hn
  · refine fun hm => ?_
    rw [show st.retainNonEmptyColumns.columns = _ from h0] at hm
    simp [kept, keptRows] at hm
  · exact (congrArg length h1).trans (by rw [length_map, hlen])
  · exact (congrArg length h2).trans (by rw [length_map, hlen])

theorem filter_lt {o : Option Nat} (h : ∀ i, o = some i → i < n) : o.filter (· < n) = o := by
  cases o with
  | none => rfl
  | some i => exact filter_some_pos (decide_eq_true (h i rfl))

theorem retainNonEmptyColumns_rebuilds (st : ScrollingState) : st.retainNonEmptyColumns = st.rebuilt := by
  obtain ⟨h0, h1, h2, h3⟩ := retain_kept st
  have hfocused := congrArg₂ Option.or h3 (congrArg (findIdx? (·.isSome)) h2)
  unfold retainNonEmptyColumns rebuilt
  rw [mk.injEq]
  refine ⟨h0, h1, h2, (filter_lt fun i hi => Nat.lt_of_lt_of_eq ?_ (congrArg length h0).symm).trans hfocused, rfl, rfl⟩
  rw [length_map]
  rcases or_eq_some_iff.1 (hfocused.symm.trans hi) with hi | ⟨-, hi⟩
  · exact (findIdx?_eq_some_iff_getElem.1 hi).1
  · simpa using (findIdx?_eq_some_iff_getElem.1 hi).1

/-! ## Windows moving between columns -/

section Columns

variable {columns : List (List ClientKey)} {key : ClientKey} {i pos : Nat}

theorem push_perm (h : i < columns.length) : (columns.modify i (· ++ [key])).flatten.Perm (key :: columns.flatten) := by
  obtain ⟨pre, col, post, rfl, rfl⟩ := exists_split h
  rw [modify_split]
  have e : (pre ++ (col ++ [key]) :: post).flatten = (pre.flatten ++ col) ++ key :: post.flatten := by simp
  have e' : (pre ++ col :: post).flatten = (pre.flatten ++ col) ++ post.flatten := by simp
  rw [e, e']
  exact perm_middle

/-- What `findClient` finds is where the client is. -/
theorem findClient_some {st : ScrollingState} (h : st.findClient key = some (i, pos)) :
    ∃ pre col post, st.columns = pre ++ col :: post ∧ pre.length = i ∧ col.idxOf? key = some pos := by
  obtain ⟨⟨col, ci⟩, hm, hc⟩ := exists_of_findSome?_eq_some h
  obtain ⟨pos', hp, e⟩ := map_eq_some_iff.1 hc
  cases e
  have hget := mem_zipIdx_iff_getElem?.1 hm
  obtain ⟨hlt, hcol⟩ := List.getElem?_eq_some_iff.1 hget
  obtain ⟨pre, x, post, e, hpre⟩ := exists_split hlt
  have hx : x = col := by
    rw [e, ← hpre, getElem?_append_right (Nat.le_refl _), Nat.sub_self] at hget
    exact some.inj hget
  exact ⟨pre, col, post, hx ▸ e, hpre, hp⟩

theorem eraseIdx_perm (h : col.idxOf? key = some pos) : col.Perm (key :: col.eraseIdx pos) := by
  have hm : key ∈ col := by
    by_contra hn
    rw [idxOf?_eq_none_iff.2 hn] at h
    cases h
  have he : col.eraseIdx pos = col.erase key := by rw [erase_eq_eraseIdx, h]
  rw [he]
  exact perm_cons_erase hm

theorem remove_perm {st : ScrollingState} (h : st.findClient key = some (i, pos)) :
    st.columns.flatten.Perm (key :: (st.columns.modify i (·.eraseIdx pos)).flatten) := by
  obtain ⟨pre, col, post, e, rfl, hp⟩ := findClient_some h
  rw [e, modify_split]
  simp only [flatten_append, flatten_cons]
  have moved : (pre.flatten ++ (col ++ post.flatten)).Perm
      (pre.flatten ++ ((key :: col.eraseIdx pos) ++ post.flatten)) :=
    ((eraseIdx_perm hp).append_right _).append_left _
  exact moved.trans perm_middle

end Columns

/-! ## Every edit keeps the invariant -/

theorem mem_flatten_iff_any {columns : List (List ClientKey)} {key : ClientKey} :
    columns.any (·.contains key) = true ↔ key ∈ columns.flatten := by
  simp [mem_flatten]

theorem Ok.insertNewClient (h : Ok st) (key : ClientKey) :
    Ok (st.insertNewClient key) ∧ ∀ k, k ∈ (st.insertNewClient key).columns.flatten ↔ k = key ∨ k ∈ st.columns.flatten := by
  have own : key ∉ st.columns.flatten → Ok
      { st with
        columns := st.columns ++ [[key]]
        columnWidthFactors := st.columnWidthFactors ++ [1.0]
        focusedClients := st.focusedClients ++ [some key]
        focusedColumn := some st.columns.length } ∧
      ∀ k, k ∈ (st.columns ++ [[key]]).flatten ↔ k = key ∨ k ∈ st.columns.flatten := by
    intro hk
    refine ⟨⟨?_, ?_, ?_, ?_, ?_⟩, fun k => ?_⟩
    · rw [flatten_append, flatten_singleton, nodup_append]
      refine ⟨h.nodup, nodup_singleton key, fun a ha b hb => ?_⟩
      rintro rfl
      rw [mem_singleton] at hb
      exact hk (hb ▸ ha)
    · intro hm
      rcases mem_append.1 hm with hm | hm
      · exact h.nonempty hm
      · simp at hm
    · simp [h.widths]
    · simp [h.focuses]
    · rintro _ ⟨⟩; simp
    · rw [flatten_append, flatten_singleton, mem_append, mem_singleton, or_comm]
  unfold ScrollingState.insertNewClient
  rw [h.ensure_eq]
  by_cases hk : key ∈ st.columns.flatten
  · rw [if_pos (mem_flatten_iff_any.2 hk)]
    refine ⟨h, fun k => ⟨.inr, ?_⟩⟩
    rintro (rfl | hm)
    · exact hk
    · exact hm
  · rw [if_neg fun hany => hk (mem_flatten_iff_any.1 hany)]
    by_cases ha : st.attachNewWindowsToFocusedColumn = true
    · cases hi : st.focusedColumnIndex with
      | none => simp only [if_pos ha, hi]; exact own hk
      | some i =>
        have hlt : i < st.columns.length := of_decide_eq_true (filter_eq_some_iff.1 hi).2
        have hp : (st.columns.modify i (· ++ [key])).flatten.Perm (key :: st.columns.flatten) := push_perm hlt
        simp only [if_pos ha, hi]
        refine ⟨⟨?_, ?_, ?_, ?_, ?_⟩, fun k => ?_⟩
        · rw [hp.nodup_iff, nodup_cons]
          exact ⟨hk, h.nodup⟩
        · obtain ⟨pre, col, post, e, rfl⟩ := exists_split hlt
          have hn := h.nonempty
          rw [e] at hn
          simp only [mem_append, mem_cons, not_or] at hn
          simp only [e, modify_split, mem_append, mem_cons, not_or]
          exact ⟨hn.1, by simp, hn.2.2⟩
        · rw [length_modify]; exact h.widths
        · rw [length_modify, length_set]; exact h.focuses
        · rintro _ ⟨⟩
          rw [length_modify]; exact hlt
        · rw [hp.mem_iff, mem_cons]
    · simp only [if_neg ha]; exact own hk

theorem Ok.foldl_insertNewClient : ∀ (keys : List ClientKey) {st : ScrollingState}, Ok st →
    Ok (keys.foldl ScrollingState.insertNewClient st) ∧
      ∀ k, k ∈ (keys.foldl ScrollingState.insertNewClient st).columns.flatten ↔ k ∈ keys ∨ k ∈ st.columns.flatten
  | [], _, h => ⟨h, fun k => by simp⟩
  | key :: keys, st, h => by
    obtain ⟨h1, h2⟩ := h.insertNewClient key
    obtain ⟨h3, h4⟩ := foldl_insertNewClient keys h1
    refine ⟨h3, fun k => ?_⟩
    rw [foldl_cons, h4, h2, mem_cons]
    tauto

theorem Ok.sync (h : Ok st) (visible : List ClientKey) : Ok (st.syncScrollingColumns visible).1 ∧
      ∀ k, k ∈ (st.syncScrollingColumns visible).1.columns.flatten ↔ k ∈ visible := by
  have hflat : (st.columns.map fun col => col.filter fun k => visible.contains k).flatten =
      st.columns.flatten.filter fun k => visible.contains k := by
    rw [filter_flatten]
  have unfolded : (st.syncScrollingColumns visible).1 =
      let s1 : ScrollingState :=
        { st with columns := st.columns.map fun col => col.filter fun k => visible.contains k }
      (visible.filter fun k => !s1.retainNonEmptyColumns.columns.flatten.contains k).foldl
        ScrollingState.insertNewClient s1.retainNonEmptyColumns := by
    unfold syncScrollingColumns
    rw [h.ensure_eq]
  rw [unfolded]
  generalize hs1 : ({ st with columns := st.columns.map fun col => col.filter fun k => visible.contains k } :
    ScrollingState) = s1
  have hc1 : s1.columns.flatten = st.columns.flatten.filter fun k => visible.contains k := by
    rw [← hs1]; exact hflat
  have h1 : Ok s1.retainNonEmptyColumns :=
    retainNonEmptyColumns_ok (by rw [hc1]; exact h.nodup.filter _)
  have hc2 : ∀ k, k ∈ s1.retainNonEmptyColumns.columns.flatten ↔ k ∈ st.columns.flatten ∧ k ∈ visible := by
    intro k
    rw [retainNonEmptyColumns_flatten, hc1, mem_filter, contains_iff_mem]
  obtain ⟨h2, h3⟩ := Ok.foldl_insertNewClient
    (visible.filter fun k => !s1.retainNonEmptyColumns.columns.flatten.contains k) h1
  refine ⟨h2, fun k => ?_⟩
  simp only
  rw [h3, mem_filter, hc2]
  constructor
  · rintro (⟨hv, -⟩ | ⟨-, hv⟩) <;> exact hv
  · intro hv
    by_cases hk : k ∈ st.columns.flatten
    · exact .inr ⟨hk, hv⟩
    · refine .inl ⟨hv, ?_⟩
      have hk' : k ∉ s1.retainNonEmptyColumns.columns.flatten := fun hm => hk ((hc2 k).1 hm).1
      simpa using hk'

theorem adjacentColumn_lt {i j : Nat} {direction : Int} (hi : i < st.columns.length)
    (h : st.adjacentColumn i direction = some j) : j < st.columns.length := by
  unfold adjacentColumn at h
  split_ifs at h <;> cases h <;> omega

section

variable (h : Ok st) (sel : Option ClientKey) (direction : Int)
include h

theorem Ok.moveColumn : Ok (st.moveColumn sel direction) := by
  unfold ScrollingState.moveColumn
  split
  · exact h
  · split
    · exact h
    · rename_i i hi
      split
      · exact h
      · rename_i j hj
        simp only [h.ensure_eq]
        have hp := swapAt_perm st.columns i j
        refine Ok.setFocusedColumn ⟨?_, ?_, ?_, ?_, ?_⟩ j
        · exact hp.flatten.nodup_iff.2 h.nodup
        · intro hm
          exact h.nonempty (hp.mem_iff.1 hm)
        · rw [(swapAt_perm _ i j).length_eq, hp.length_eq]; exact h.widths
        · rw [(swapAt_perm _ i j).length_eq, hp.length_eq]; exact h.focuses
        · intro c hc
          rw [hp.length_eq]
          exact h.focused c hc

theorem Ok.consume : Ok (st.consume sel direction) := by
  unfold ScrollingState.consume
  split
  · exact h
  · cases sel with
    | none => exact h
    | some key =>
      have h1 := h.rememberFocus key
      simp only
      generalize st.rememberFocus key = s1 at h1
      cases hf : s1.findClient key with
      | none => exact h1
      | some p =>
        obtain ⟨i, pos⟩ := p
        simp only
        split
        · exact h1
        · rename_i j hj
          have hrem := remove_perm hf
          obtain ⟨pre, col, post, e, hpre, -⟩ := findClient_some hf
          have hi : i < s1.columns.length := by rw [e, ← hpre]; simp
          have hj' : j < (s1.columns.modify i (·.eraseIdx pos)).length := by
            rw [length_modify]; exact adjacentColumn_lt hi hj
          refine retainNonEmptyColumns_ok ?_
          rw [rememberFocus_columns]
          exact ((push_perm hj').trans hrem.symm).nodup_iff.2 h1.nodup

theorem Ok.expel : Ok (st.expel sel direction) := by
  unfold ScrollingState.expel
  split
  · exact h
  · cases sel with
    | none => exact h
    | some key =>
      simp only
      cases hf : st.findClient key with
      | none => exact h
      | some p =>
        obtain ⟨i, pos⟩ := p
        simp only
        split
        · exact h
        · rename_i hlen
          have hrem := remove_perm hf
          obtain ⟨pre, col, post, e, hpre, hp⟩ := findClient_some hf
          simp only [h.ensure_eq]
          have hins : (if direction > 0 then i + 1 else i) ≤ st.columns.length := by
            rw [e, ← hpre, length_append, length_cons]
            split <;> omega
          have hins' : (if direction > 0 then i + 1 else i) ≤ (st.columns.modify i (·.eraseIdx pos)).length := by
            rw [length_modify]; exact hins
          have hperm := perm_insertIdx [key] (st.columns.modify i (·.eraseIdx pos)) hins'
          refine Ok.setFocusedColumn ⟨?_, ?_, ?_, ?_, ?_⟩ _
          · have := hperm.flatten
            rw [flatten_cons, singleton_append] at this
            exact (this.trans hrem.symm).nodup_iff.2 h.nodup
          · intro hm
            -- the column it leaves had at least two windows
            have hcol : col.eraseIdx pos ≠ [] := by
              intro hnil
              have := (eraseIdx_perm hp).length_eq
              rw [hnil, length_singleton] at this
              have hd : st.columns.getD i [] = col := by rw [e, ← hpre]; simp
              rw [hd] at hlen
              omega
            have hn := h.nonempty
            rw [e] at hn
            simp only [mem_append, mem_cons, not_or] at hn
            rw [hperm.mem_iff, e, ← hpre, modify_split] at hm
            simp only [mem_cons, mem_append] at hm
            rcases hm with hm | hm | hm | hm
            · cases hm
            · exact hn.1 hm
            · exact hcol hm.symm
            · exact hn.2.2 hm
          · rw [length_insertIdx_of_le_length (h.widths ▸ hins), hperm.length_eq, length_cons,
              length_modify, h.widths]
          · rw [length_insertIdx_of_le_length (h.focuses ▸ hins), hperm.length_eq, length_cons,
              length_modify, h.focuses]
          · intro c hc
            rw [hperm.length_eq, length_cons, length_modify]
            exact Nat.lt_succ_of_lt (h.focused c hc)

end

/-! ## Runs -/

/-- An edit of the strip. -/
inductive Edit where
  | sync (visible : List ClientKey)
  | rememberFocus (key : ClientKey)
  | insertNewClient (key : ClientKey)
  | setFocusedColumn (colIdx : Nat)
  | toggleAttach (sel : Option ClientKey)
  | moveColumn (sel : Option ClientKey) (direction : Int)
  | consume (sel : Option ClientKey) (direction : Int)
  | expel (sel : Option ClientKey) (direction : Int)

def edit (st : ScrollingState) : Edit → ScrollingState
  | .sync visible => (st.syncScrollingColumns visible).1
  | .rememberFocus key => st.rememberFocus key
  | .insertNewClient key => st.insertNewClient key
  | .setFocusedColumn colIdx => st.setFocusedColumn colIdx
  | .toggleAttach sel => st.toggleAttachMode sel
  | .moveColumn sel direction => st.moveColumn sel direction
  | .consume sel direction => st.consume sel direction
  | .expel sel direction => st.expel sel direction

theorem Ok.edit (h : Ok st) (e : Edit) : Ok (st.edit e) := by
  cases e with
  | sync visible => exact (h.sync visible).1
  | rememberFocus key => exact h.rememberFocus key
  | insertNewClient key => exact (h.insertNewClient key).1
  | setFocusedColumn i => exact h.setFocusedColumn i
  | toggleAttach sel => exact h.toggleAttachMode sel
  | moveColumn sel direction => exact h.moveColumn sel direction
  | consume sel direction => exact h.consume sel direction
  | expel sel direction => exact h.expel sel direction

theorem Ok.edits : ∀ (edits : List Edit) {st : ScrollingState}, Ok st → Ok (edits.foldl ScrollingState.edit st)
  | [], _, h => h
  | e :: edits, _, h => Ok.edits edits (h.edit e)

end ScrollingState

/-- After any edits of a new strip: no client occurs twice, no column is empty, the vectors beside the columns have their
length, the focused column exists, and a sync leaves exactly the visible clients in the columns. -/
theorem scrolling_strip_ok (edits : List ScrollingState.Edit) :
    let st := edits.foldl ScrollingState.edit .new
    st.columns.flatten.Nodup ∧ (∀ col ∈ st.columns, col ≠ []) ∧
      st.columnWidthFactors.length = st.columns.length ∧ st.focusedClients.length = st.columns.length ∧
      (∀ i, st.focusedColumn = some i → i < st.columns.length) ∧
      (∀ i col, st.columns[i]? = some col → ∃ k ∈ col, st.targetForColumn i = some k) ∧
      ∀ visible k, k ∈ (st.syncScrollingColumns visible).1.columns.flatten ↔ k ∈ visible := by
  have h := ScrollingState.Ok.edits edits ScrollingState.new_ok
  refine ⟨h.nodup, ?_, h.widths, h.focuses, h.focused, fun i col hc => h.targetForColumn_mem hc,
    fun visible => (h.sync visible).2⟩
  rintro col hc rfl
  exact h.nonempty hc

end Jwm
