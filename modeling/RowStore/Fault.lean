/-
# RowStore.Fault -- why an operation on the store can fail

Each constructor is one cause and carries what its text needs.  Causes that
arise in one part of the store have a type of their own: `DataFault` for bytes
and rows that cannot be turned into each other, `ShapeFault` for rows and
schemas that do not fit, `FileFault` for files.  `Fault.message` is the one
place where the wording stands.  Only a deadlock obliges the transaction to
give up (`Fault.mustAbort_iff`).
-/
import RowStore.Identity
import RowStore.Lock.Mode
import RowStore.Utf8
import RowStore.Value

namespace RowStore

set_option autoImplicit false

/-! ## Parts -/

/-- A row that has no stored form, or bytes that are not the stored form of one. -/
inductive DataFault where
  | textTooLong (bytes : Nat)
  | tooFewBytes (type : DataType) (available : Nat)
  | notBoolean (byte : UInt8)
  | lengthTooLarge (length : Nat)
  | notText (defect : Utf8.Defect)
  | wrongSize (expected available : Nat)
deriving DecidableEq, Repr

def DataFault.message : DataFault → String
  | .textTooLong n => s!"string of {n} bytes exceeds the {textLimit} byte limit"
  | .tooFewBytes t n => s!"need {t.width} bytes for {t.name}, have {n}"
  | .notBoolean b => s!"invalid boolean byte {b}"
  | .lengthTooLarge n => s!"string length {n} exceeds {textLimit}"
  | .notText d => d.message
  | .wrongSize expected n => s!"expected {expected} bytes, got {n}"

/-- A comparison of one column of a row with a constant. -/
structure Predicate where
  column : Nat
  op : Comparison
  operand : Value
deriving DecidableEq, Repr

def Predicate.text (p : Predicate) : String :=
  s!"${p.column} {p.op.name} {p.operand.render}"

/-- A row, a schema, a page or a plan that does not fit its surroundings. -/
inductive ShapeFault where
  | arity (expected given : Nat)
  | columnType (column : String) (expected given : DataType)
  | noColumns
  | rowWiderThanPage (row page : Nat)
  | rowWiderThanPages (row page : Nat)
  | tooManySlots (slots : Nat)
  | predicateColumn (predicate : Predicate) (columns : Nat)
  | insertTypes (given : List DataType) (table : TableId) (expected : List DataType)
deriving DecidableEq, Repr

/-- A list of types is written in brackets, by their long names. -/
def DataType.listText (types : List DataType) : String :=
  "[" ++ String.intercalate ", " (types.map DataType.longName) ++ "]"

def ShapeFault.message : ShapeFault → String
  | .arity expected given => s!"expected {expected} values, got {given}"
  | .columnType column expected given =>
      s!"column '{column}' is {expected.name}, got {given.name}"
  | .noColumns => "schema has no columns"
  | .rowWiderThanPage row page => s!"tuples of {row} bytes do not fit in a {page} byte page"
  | .rowWiderThanPages row page => s!"tuples of {row} bytes do not fit in {page} byte pages"
  | .tooManySlots n => s!"{n} slots per page exceeds the slot id range"
  | .predicateColumn p columns =>
      s!"predicate {p.text} names column {p.column} of a {columns}-column input"
  | .insertTypes given table expected =>
      let givenText := DataType.listText given
      let expectedText := DataType.listText expected
      s!"cannot insert {givenText} rows into table {table} of {expectedText}"

/-- A page image that breaks the page format. -/
inductive ImageFault where
  | strayBit (bit : Nat)
  | badSlot (slot : Nat) (cause : DataFault)
deriving DecidableEq, Repr

inductive ConfigFault where
  | pageSize (largest given : Nat)
  | noFrames
deriving DecidableEq, Repr

def ConfigFault.message : ConfigFault → String
  | .pageSize largest given => s!"page size must be between 1 and {largest} bytes, got {given}"
  | .noFrames => "buffer pool needs at least one page"

/-- The kinds that failures of file operations fall into. -/
inductive FileFaultKind where
  | notFound
  | notADirectory
  | invalidFilename
  | invalidInput
  | unexpectedEnd
deriving DecidableEq, Repr

inductive FileFault where
  | noSuchFile
  | notADirectory
  | nameTooLong
  | nulInName
  | badOffset
  | pastEnd (page : Nat)
  | bufferSize (expected given : Nat)
deriving DecidableEq, Repr

namespace FileFault

def kind : FileFault → FileFaultKind
  | .noSuchFile => .notFound
  | .notADirectory => .notADirectory
  | .nameTooLong => .invalidFilename
  | .nulInName | .badOffset | .bufferSize _ _ => .invalidInput
  | .pastEnd _ => .unexpectedEnd

/-- Whether the failure comes from the operating system, whose wording it then has. -/
def fromSystem : FileFault → Bool
  | .noSuchFile | .notADirectory | .nameTooLong | .badOffset => true
  | .nulInName | .pastEnd _ | .bufferSize _ _ => false

def message : FileFault → String
  | .noSuchFile => "No such file or directory (os error 2)"
  | .notADirectory => "Not a directory (os error 20)"
  | .nameTooLong => "File name too long (os error 36)"
  | .nulInName => "file name contained an unexpected NUL byte"
  | .badOffset => "Invalid argument (os error 22)"
  | .pastEnd page => s!"page {page} is past the end of the file"
  | .bufferSize expected given => s!"buffer must be {expected} bytes, got {given}"

end FileFault

inductive AggregateFunction where
  | min
  | max
  | sum
  | avg
  | count
deriving DecidableEq, Repr

def AggregateFunction.name : AggregateFunction → String
  | .min => "MIN"
  | .max => "MAX"
  | .sum => "SUM"
  | .avg => "AVG"
  | .count => "COUNT"

/-- An aggregate over a column of a type it does not know, or whose result is no
32-bit integer. -/
inductive AggregateFault where
  | columnType (op : AggregateFunction) (type : DataType) (column : String)
  | overflow (op : AggregateFunction) (result : Int)
deriving DecidableEq, Repr

def AggregateFault.message : AggregateFault → String
  | .columnType op type column => s!"{op.name} over {type.name} column {column}"
  | .overflow op result => s!"{op.name} result {result} overflows INT"

/-! ## Faults of the store -/

inductive Fault where
  | deadlock (txn : TxnId) (page : PageId) (mode : LockMode)
  | poolFull
  | rowNotFound (id : RecordId)
  | noRecordId
  | badSlot (slot largest : Nat)
  | pageFull (page : PageId)
  | pageNotFound (page : PageId)
  | tableMismatch (expected found : TableId)
  | tableNotFound (table : TableId)
  | unknownTable (name : String)
  | tableBusy (table : TableId)
  | corruptPage (page : PageId) (cause : ImageFault)
  | badData (cause : DataFault)
  | badShape (cause : ShapeFault)
  | unsupported (cause : AggregateFault)
  | cursorClosed
  | badConfig (cause : ConfigFault)
  | file (cause : FileFault)
deriving DecidableEq, Repr

namespace Fault

def dataText (cause : DataFault) : String := "Invalid tuple data: " ++ cause.message

def message : Fault → String
  | .deadlock txn page mode =>
      s!"Deadlock detected: {txn.text} must abort (requested {mode.name} lock on page {page.text})"
  | .poolFull => "Buffer pool is full: every resident page is dirty"
  | .rowNotFound id => s!"Tuple not found: slot {id.slot} of page {id.page.text} is empty"
  | .noRecordId => "Tuple has no record id"
  | .badSlot slot largest => s!"Invalid slot ID: {slot} (max: {largest})"
  | .pageFull page => s!"Page is full: {page.text}"
  | .pageNotFound page => s!"Page not found: {page.text}"
  | .tableMismatch expected found =>
      s!"Table mismatch: expected table {expected}, got page of table {found}"
  | .tableNotFound table => s!"Table not found: {table}"
  | .unknownTable name => s!"Unknown table name: {name}"
  | .tableBusy table => s!"Table {table} has uncommitted changes"
  | .corruptPage page (.strayBit bit) =>
      s!"Corrupt page {page.text}: bitmap marks nonexistent slot {bit}"
  | .corruptPage page (.badSlot slot cause) =>
      let causeText := dataText cause
      s!"Corrupt page {page.text}: slot {slot}: {causeText}"
  | .badData cause => dataText cause
  | .badShape cause => "Schema mismatch: " ++ cause.message
  | .unsupported cause => "Unsupported operation: " ++ cause.message
  | .cursorClosed => "Iterator is not open"
  | .badConfig cause => "Invalid configuration: " ++ cause.message
  | .file cause => "IO error: " ++ cause.message

/-- Whether the transaction that met the fault has to be given up. -/
def mustAbort : Fault → Bool
  | .deadlock _ _ _ => true
  | _ => false

theorem mustAbort_iff {f : Fault} :
    f.mustAbort = true ↔ ∃ txn page mode, f = .deadlock txn page mode := by
  cases f <;> simp [mustAbort]

end Fault

end RowStore
