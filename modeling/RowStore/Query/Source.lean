/-
# RowStore.Query.Source -- streams of rows that are pulled one at a time

A source is started once, answers its rows one after the other and can be rewound.
It is described by what it does to a state of its own and the store, so it can stand
as the child of another source whatever it is.  This module has the two sources
without children: a table scan and a list of rows.
-/
import RowStore.Cursor

namespace RowStore

set_option autoImplicit false

structure Source (σ : Type) where
  /-- The columns of the rows, known once the source is started. -/
  schema : σ → Schema
  start : Step σ Unit
  /-- The next row.  The bound limits the number of rows taken from a child. -/
  next : Nat → Step σ (Option Row)
  rewind : Step σ Unit

namespace Source

/-- Start a source and take all its rows. -/
def collect {σ : Type} (source : Source σ) (bound : Nat) : Step σ (List Row) := do
  source.start
  Step.collectRows (source.next bound) bound

/-! ## Table scans -/

structure ScanState where
  cursor? : Option Cursor
  schema : Schema

/-- Run a step of the cursor, which is there once the scan is started. -/
def onCursor {α : Type} (step : Step Cursor α) : Step ScanState α := do
  match (← Step.own).cursor? with
  | none => throw (.plan .notStarted)
  | some cursor =>
      Step.onPart (fun _ => cursor) (fun after s => { s with cursor? := some after }) step

/-- The rows of a table, under the schema it has when the scan starts. -/
def scan (txn : TxnId) (table : TableId) : Source ScanState where
  schema s := s.schema
  start := do
    if (← Step.own).cursor?.isSome then return
    let file ← Step.onStore (StoreAction.tableFile table)
    Step.modifyOwn fun _ => ⟨some (Cursor.new file txn), file.schema⟩
    onCursor Cursor.openFirst
  next _ := onCursor Cursor.next
  rewind := onCursor Cursor.rewind

/-! ## Lists of rows -/

/-- Given rows; the state holds those still to come. -/
def ofRows (schema : Schema) (rows : List (List Value)) : Source (List (List Value)) where
  schema _ := schema
  start := rows.forM fun row =>
    match schema.check row with
    | .ok () => pure ()
    | .error fault => Step.fail (.badShape fault)
  next _ := do
    match ← Step.own with
    | [] => return none
    | values :: rest =>
        Step.modifyOwn fun _ => rest
        return some (Row.fresh values)
  rewind := Step.modifyOwn fun _ => rows

end Source

end RowStore
