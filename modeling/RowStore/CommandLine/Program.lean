/-
# RowStore.CommandLine.Program -- running a command on a store

A run of the program takes the files it finds and leaves files, lines of output and
an exit code.  When a command fails, the program complains with the failure's texts,
from what was attempted down to the cause.
-/
import RowStore.CommandLine.Invocation
import RowStore.Histogram
import RowStore.Store.Completion
import RowStore.Store.Rows
import RowStore.Store.Tables

namespace RowStore

set_option autoImplicit false

namespace CommandLine

/-! ## Failures -/

/-- A failed command: what was attempted, outermost first, and the cause. -/
structure Failure where
  attempts : List String
  cause : Stop
deriving DecidableEq, Repr

namespace Failure

/-- The texts of a cause: its own, and that of the file operation behind it. -/
def causeTexts : Stop → List String
  | .fault (.file cause) => [(Fault.file cause).message, cause.message]
  | cause => [cause.message]

/-- The reasons under the first text; several are numbered. -/
def reasons : List String → String
  | [] => ""
  | [only] => "\n\nCaused by:\n    " ++ only
  | several =>
      "\n\nCaused by:" ++
        String.join (several.zipIdx.map fun (text, index) => s!"\n    {index}: {text}")

/-- The complaint that these texts make, the last of them the deepest reason. -/
def complaintOf : List String → String
  | [] => "Error: \n"
  | first :: rest => "Error: " ++ first ++ reasons rest ++ "\n"

def complaint (f : Failure) : String := complaintOf (f.attempts ++ causeTexts f.cause)

end Failure

/-- A command in the course of its run. -/
abbrev Run (α : Type) := ExceptT Failure (StateM Store) α

/-- Run an action on the store; when it stops, say what was attempted. -/
def attempt {α : Type} (attempts : List String) (action : StoreAction α) : Run α := fun s =>
  match action s with
  | (.ok a, after) => (.ok a, after)
  | (.error cause, after) => (.error ⟨attempts, cause⟩, after)

/-! ## Commands -/

/-- The columns of the tables that the program works with. -/
def people : Schema := ⟨[⟨"id", .int⟩, ⟨"name", .varchar⟩]⟩

/-- The rows that one transaction of a load inserts. -/
def batchSize : Int32 := 256

/-- The row at which a batch ends that starts at a row.  A sum that would be too large for a
row number stops at the largest one. -/
def batchEnd (rows start : Int32) : Int32 :=
  let full := Int32.ofIntClamp (start.toInt + batchSize.toInt)
  if rows < full then rows else full

theorem toInt_batchEnd {rows start : Int32} (more : start < rows) :
    (batchEnd rows start).toInt = min rows.toInt (start.toInt + 256) := by
  have size : batchSize.toInt = 256 := by decide
  have before := Int32.lt_iff_toInt_lt.1 more
  have largest := Int32.toInt_lt rows
  have least := Int32.le_toInt start
  have high := Int32.toInt_maxValue
  have low := Int32.toInt_minValue
  unfold batchEnd
  simp only [size, Int32.lt_iff_toInt_lt]
  by_cases fits : start.toInt + 256 ≤ Int32.maxValue.toInt
  · rw [Int32.toInt_ofIntClamp (by omega) fits]
    split
    · omega
    · rw [Int32.toInt_ofIntClamp (by omega) fits]
      omega
  · have stopped : Int32.ofIntClamp (start.toInt + 256) = Int32.maxValue := by
      rw [Int32.ofIntClamp, dif_pos (by omega), dif_neg fits]
    rw [stopped]
    split <;> omega

/-- The row numbers from one up to another. -/
def rowNumbers (start stop : Int32) : List Int32 :=
  (List.range (stop.toInt - start.toInt).toNat).map fun (i : Nat) => Int32.ofInt (start.toInt + i)

/-- The row of that number. -/
def person (name : Int32 → String) (id : Int32) : List Value := [.int id, .text (name id)]

/-- Insert the rows of these numbers, with a name for each. -/
def insertPeople (table : TableId) (txn : TxnId) (name : Int32 → String) : List Int32 → Run Unit
  | [] => pure ()
  | id :: rest => do
      let _ ← attempt [s!"Failed to insert row {id}"]
        (StoreAction.insertRow txn table (person name id))
      insertPeople table txn name rest

/-- Insert and commit one batch. -/
def loadBatch (table : TableId) (name : Int32 → String) (batch : List Int32) : Run Unit := do
  let txn ← attempt [] StoreAction.begin
  insertPeople table txn name batch
  attempt ["Failed to commit load"] (StoreAction.commit txn)

/-- Insert and commit the rows from one number on, batch by batch. -/
def loadFrom (table : TableId) (rows : Int32) (name : Int32 → String) (start : Int32) : Run Unit :=
  if start < rows then do
    loadBatch table name (rowNumbers start (batchEnd rows start))
    loadFrom table rows name (batchEnd rows start)
  else pure ()
termination_by (rows.toInt - start.toInt).toNat
decreasing_by
  rename_i more
  have before := Int32.lt_iff_toInt_lt.1 more
  have last := toInt_batchEnd more
  omega

/-- Create a table and fill it with so many rows. -/
def load (table : String) (rows : Int32) (name : Int32 → String) : Run (List String) := do
  let id ← attempt [s!"Failed to create table '{table}'"]
    (StoreAction.createTable table people)
  loadFrom id rows name 0
  -- The pages of the file are counted for the log only.
  let _ ← attempt [] (StoreAction.tableFile id)
  return []

/-- The rows of a table, read in a transaction of its own. -/
def readTable (table : TableId) : Run (List Row) := do
  let txn ← attempt [] StoreAction.begin
  let rows ← attempt [] (StoreAction.scan txn table)
  attempt [] (StoreAction.commit txn)
  return rows

/-- The values of a row, apart by tabs. -/
def line (row : Row) : String := String.intercalate "\t" (row.values.map Value.render)

/-- One line per row. -/
def scan (table : String) : Run (List String) := do
  let id ← attempt [] (StoreAction.openTable table people)
  let rows ← readTable id
  return rows.map line

/-- The first column of the rows, where it is an integer. -/
def idsOf (rows : List Row) : List Int32 :=
  rows.filterMap fun row => (row.value? 0).bind Value.int?

/-- The histogram of the ids, and the estimate that was asked for. -/
def idLines (ids : List Int32) (below? : Option Int32) (buckets : Nat) : List String :=
  match ids.min?, ids.max? with
  | some low, some high =>
      let histogram := (Histogram.new buckets low high : Histogram Float).addAll ids
      let estimate (v : Int32) : String :=
        let bound := v.toInt
        let fraction := Decimal.fixed 4 (histogram.estimate .lt v)
        s!"est. selectivity of id < {bound}: {fraction}"
      histogram.text :: (below?.map estimate).toList
  | _, _ => []

/-- Pages, rows and ids of a table. -/
def stats (table : String) (below? : Option Int32) (buckets : Nat) : Run (List String) := do
  let id ← attempt [] (StoreAction.openTable table people)
  let file ← attempt [] (StoreAction.tableFile id)
  let ids := idsOf (← readTable id)
  let pages := (← get).pageCount file
  return [s!"table:  {table} (id {id})", s!"file:   {file.path}", s!"pages:  {pages}",
    s!"rows:   {ids.length}"] ++ idLines ids below? buckets

def perform (command : Command) (name : Int32 → String) : Run (List String) :=
  match command with
  | .load table rows => load table rows name
  | .scan table => scan table
  | .stats table below? buckets => stats table below? buckets

/-! ## The program -/

/-- What a run of the program leaves. -/
structure Outcome where
  code : Nat
  lines : List String
  complaint : String
  disk : Disk

/-- What is attempted when the directory is opened. -/
def openingAttempt : String := "Failed to open database"

/-- Run an invocation on the files of its directory. -/
def execute (invocation : Invocation) (name : Int32 → String) (disk : Disk) : Outcome :=
  match Store.openOn invocation.settings disk with
  | .error fault =>
      let failure : Failure := ⟨[openingAttempt], .fault fault⟩
      ⟨1, [], failure.complaint, disk⟩
  | .ok store =>
      match perform invocation.command name store with
      | (.ok lines, after) => ⟨0, lines, "", after.disk⟩
      | (.error failure, after) => ⟨1, [], failure.complaint, after.disk⟩

end CommandLine

end RowStore
