/-
The state of the scrolling layout (`core/models.rs`): a strip of columns, with a width factor and a
remembered window per column in vectors of their own, and the focused column.
-/
import Jwm.Core.Types
import Jwm.Data.Vec

namespace Jwm

/-! ## The state -/

structure ScrollingState where
  columns : List (List ClientKey)
  columnWidthFactors : List Float32
  focusedClients : List (Option ClientKey)
  focusedColumn : Option Nat
  attachNewWindowsToFocusedColumn : Bool
  viewportX : Float32

namespace ScrollingState

def new : ScrollingState where
  columns := []
  columnWidthFactors := []
  focusedClients := []
  focusedColumn := none
  attachNewWindowsToFocusedColumn := false
  viewportX := 0.0

variable (st : ScrollingState)

def ensureColumnMetadata : ScrollingState :=
  { st with
    columnWidthFactors := (resize st.columnWidthFactors st.columns.length 1.0).take st.columns.length
    focusedClients := (resize st.focusedClients st.columns.length none).take st.columns.length }

def rememberFocus (clientKey : ClientKey) : ScrollingState :=
  let st := st.ensureColumnMetadata
  match st.columns.findIdx? (·.contains clientKey) with
  | some colIdx =>
    { st with focusedClients := st.focusedClients.set colIdx (some clientKey), focusedColumn := some colIdx }
  | none => st

def focusedColumnIndex : Option Nat := st.focusedColumn.filter (· < st.columns.length)

def setFocusedColumn (colIdx : Nat) : ScrollingState :=
  if colIdx < st.columns.length then { st with focusedColumn := some colIdx } else st

def targetForColumn (colIdx : Nat) : Option ClientKey :=
  st.columns[colIdx]?.bind fun col =>
    (st.focusedClients[colIdx]?.bind fun focus => focus.filter (col.contains ·)).or col.head?

/-! ## Dropping empty columns -/

/-- What the closure of `retain_non_empty_columns` captures. -/
structure Compaction where
  oldIdx : Nat
  retainedLen : Nat
  retainedFocusedColumn : Option Nat
  widths : List Float32
  focuses : List (Option ClientKey)

/-- One call of the closure: whether the column stays, and its row written down over the dropped ones. -/
def Compaction.visit (oldFocusedColumn : Option Nat) (c : Compaction) (col : List ClientKey) : Bool × Compaction :=
  let idx := c.oldIdx
  if col.isEmpty then (false, { c with oldIdx := idx + 1 })
  else
    let width := c.widths.getD idx 1.0
    let focus := ((c.focuses.getD idx none).filter (col.contains ·)).or col.head?
    (true,
      { oldIdx := idx + 1
        retainedLen := c.retainedLen + 1
        retainedFocusedColumn :=
          if oldFocusedColumn = some idx then some c.retainedLen else c.retainedFocusedColumn
        widths := c.widths.set c.retainedLen width
        focuses := c.focuses.set c.retainedLen focus })

/-- `columns.retain(..)`. -/
def Compaction.retain (oldFocusedColumn : Option Nat) :
    List (List ClientKey) → Compaction → List (List ClientKey) × Compaction
  | [], c => ([], c)
  | col :: columns, c =>
    let visited := c.visit oldFocusedColumn col
    let rest := retain oldFocusedColumn columns visited.2
    (if visited.1 then col :: rest.1 else rest.1, rest.2)

def retainNonEmptyColumns : ScrollingState :=
  let st := st.ensureColumnMetadata
  let (columns, c) := Compaction.retain st.focusedColumn st.columns
    { oldIdx := 0, retainedLen := 0, retainedFocusedColumn := none, widths := st.columnWidthFactors,
      focuses := st.focusedClients }
  let focuses := c.focuses.take c.retainedLen
  { st with
    columns := columns
    columnWidthFactors := c.widths.take c.retainedLen
    focusedClients := focuses
    focusedColumn := (c.retainedFocusedColumn.or (focuses.findIdx? (·.isSome))).filter (· < columns.length) }

/-! ## New windows -/

def insertNewClient (clientKey : ClientKey) : ScrollingState :=
  if st.columns.any (·.contains clientKey) then st
  else
    let st := st.ensureColumnMetadata
    let ownColumn : ScrollingState :=
      { st with
        columns := st.columns ++ [[clientKey]]
        columnWidthFactors := st.columnWidthFactors ++ [1.0]
        focusedClients := st.focusedClients ++ [some clientKey]
        focusedColumn := some st.columns.length }
    if st.attachNewWindowsToFocusedColumn then
      match st.focusedColumnIndex with
      | some colIdx =>
        { st with
          columns := st.columns.modify colIdx (· ++ [clientKey])
          focusedClients := st.focusedClients.set colIdx (some clientKey)
          focusedColumn := some colIdx }
      | none => ownColumn
    else ownColumn

end ScrollingState

end Jwm
