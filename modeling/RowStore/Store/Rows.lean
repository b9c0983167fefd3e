/-
# RowStore.Store.Rows -- inserting and deleting rows

An insert walks the pages of the table from the first, locking each exclusively,
until one has a free slot; when all are full the file grows by a page.  A delete
frees the slot that the row's id names.  Either marks the page as changed by the
transaction, which keeps it in the pool until the transaction ends.
-/
import RowStore.Store.Access

namespace RowStore

set_option autoImplicit false

namespace StoreAction

/-- Store a row on the page if it has room, and mark the page. -/
def insertIfRoom (txn : TxnId) (values : List Value) : PageAction (Option RecordId) := do
  if (← get).freeCount = 0 then return none
  let id ← PageAction.insert values
  PageAction.mark (some txn)
  return some id

/-- Append an empty page to a table file. -/
def appendPage (file : TableFile) : StoreAction PageId := do
  let s ← get
  match (s.pageFile file).append with
  | .ok (number, pages) =>
      set (s.setPageFile file pages)
      return ⟨file.id, number⟩
  | .error fault => Action.fail (.file fault)

/-- Store a row on the first of these pages that has room. -/
def insertOnPages (file : TableFile) (txn : TxnId) (values : List Value) :
    List Nat → StoreAction (Option (RecordId × Frame))
  | [] => return none
  | number :: rest => do
      match ← changePage txn ⟨file.id, number⟩ (insertIfRoom txn values) with
      | (some id, frame) => return some (id, frame)
      | (none, _) => insertOnPages file txn values rest

/-- Append pages until one takes the row.  A page that was just appended is empty
unless a full version of it was still resident. -/
def insertOnNewPage (file : TableFile) (txn : TxnId) (values : List Value) :
    Nat → StoreAction (RecordId × Frame)
  | 0 => throw .exhausted
  | attempts + 1 => do
      let page ← appendPage file
      match ← changePage txn page (insertIfRoom txn values) with
      | (some id, frame) => return (id, frame)
      | (none, _) => insertOnNewPage file txn values attempts

/-- Store a row in the first free slot of a table file. -/
def insertInFile (file : TableFile) (txn : TxnId) (values : List Value) :
    StoreAction (RecordId × Frame) := do
  Action.ofExcept ((file.schema.check values).mapError Fault.badShape)
  let pages := List.range ((← get).pageCount file)
  match ← insertOnPages file txn values pages with
  | some stored => return stored
  | none => insertOnNewPage file txn values ((← get).pool.capacity + 1)

/-- A slot that does not exist counts as one that holds no row. -/
def noRowAt (id : RecordId) : Fault → Fault
  | .badSlot _ _ => .rowNotFound id
  | fault => fault

/-- Free the slot of a row of a table file. -/
def deleteInFile (file : TableFile) (txn : TxnId) (row : Row) : StoreAction Frame := do
  match row.id? with
  | none => Action.fail .noRecordId
  | some id =>
      Action.ofExcept (file.checkOwner id.page)
      if (← get).pageCount file ≤ id.page.number then Action.fail (.rowNotFound id)
      let erase : PageAction Unit := do
        ExceptT.adapt (noRowAt id) (PageAction.delete id)
        PageAction.mark (some txn)
      let (_, frame) ← changePage txn id.page erase
      return frame

/-- Mark a page as changed by the transaction and refresh it in the pool. -/
def markChanged (txn : TxnId) (frame : Frame) : StoreAction Unit :=
  install { frame with page := frame.page.withMark (some txn) }

/-- Add a row to a table. -/
def insertRow (txn : TxnId) (table : TableId) (values : List Value) : StoreAction RecordId := do
  let file ← tableFile table
  let (id, frame) ← insertInFile file txn values
  markChanged txn frame
  return id

/-- Add rows one after the other; the answer is the id of the last. -/
def insertRows (txn : TxnId) (table : TableId) :
    List (List Value) → StoreAction (Option RecordId)
  | [] => return none
  | [values] => some <$> insertRow txn table values
  | values :: rest => do
      let _ ← insertRow txn table values
      insertRows txn table rest

/-- Remove the row that carries an id from its table. -/
def deleteRow (txn : TxnId) (row : Row) : StoreAction Unit := do
  match row.id? with
  | none => Action.fail .noRecordId
  | some id =>
      let file ← tableFile id.page.table
      let frame ← deleteInFile file txn row
      markChanged txn frame

/-- All rows of the pages, in order. -/
def scanPages (file : TableFile) (txn : TxnId) : List Nat → StoreAction (List Row)
  | [] => return []
  | number :: rest => do
      let frame ← readPage txn ⟨file.id, number⟩ .shared
      let rows ← Action.ofExcept frame.page.rows
      return rows ++ (← scanPages file txn rest)

/-- All rows of a table in the order of their ids. -/
def scan (txn : TxnId) (table : TableId) : StoreAction (List Row) := do
  let file ← tableFile table
  scanPages file txn (List.range ((← get).pageCount file))

end StoreAction

end RowStore
