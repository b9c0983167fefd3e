/-
# RowStore.Cursor -- reading a table row by row

A cursor holds the rows it has fetched and not answered yet, and the number of the
page to fetch next.  It fetches a page with a shared lock when it runs out of rows,
and looks again for appended pages when it is past the last page it knew.  A page is
passed as soon as its fetch is tried.
-/
import RowStore.Step

namespace RowStore

set_option autoImplicit false

structure Cursor where
  file : TableFile
  txn : TxnId
  isOpen : Bool
  nextPage : Nat
  knownPages : Nat
  /-- Rows that are fetched and still to be answered. -/
  ready : List Row
deriving DecidableEq, Repr, Inhabited

namespace Cursor

/-- A closed cursor on a table. -/
def new (file : TableFile) (txn : TxnId) : Cursor := ⟨file, txn, false, 0, 0, []⟩

def filePages : Step Cursor Nat := do
  let (cursor, store) ← get
  return store.pageCount cursor.file

/-- Start at the first page. -/
def openFirst : Step Cursor Unit := do
  let pages ← filePages
  Step.modifyOwn fun c => { c with knownPages := pages, nextPage := 0, ready := [], isOpen := true }

/-- Fetch pages until one has rows; the first of these is answered.  The bound
counts the pages that may be fetched. -/
def advance : Nat → Step Cursor (Option Row)
  | 0 => throw .exhausted
  | bound + 1 => do
      let known ← Step.own
      if known.knownPages ≤ known.nextPage then
        let pages ← filePages
        Step.modifyOwn fun c => { c with knownPages := pages }
      let cursor ← Step.own
      if cursor.knownPages ≤ cursor.nextPage then return none
      Step.modifyOwn fun c => { c with nextPage := c.nextPage + 1 }
      let frame ← Step.onStore
        (StoreAction.readPage cursor.txn ⟨cursor.file.id, cursor.nextPage⟩ .shared)
      match frame.page.rows with
      | .error fault => Step.fail fault
      | .ok [] => advance bound
      | .ok (row :: rest) =>
          Step.modifyOwn fun c => { c with ready := rest }
          return some row

/-- The next row, or none when every page has been passed. -/
def next : Step Cursor (Option Row) := do
  let cursor ← Step.own
  if !cursor.isOpen then Step.fail .cursorClosed
  match cursor.ready with
  | row :: rest =>
      Step.modifyOwn fun c => { c with ready := rest }
      return some row
  | [] => advance (max cursor.knownPages (← filePages) - cursor.nextPage + 1)

/-- Whether there is a next row, which stays the next one.  A closed cursor has none. -/
def hasNext : Step Cursor Bool := do
  if !(← Step.own).isOpen then return false
  match ← next with
  | some row =>
      Step.modifyOwn fun c => { c with ready := row :: c.ready }
      return true
  | none => return false

/-- All rows from here on. -/
def rest : Step Cursor (List Row) := do
  let (_, store) ← get
  Step.collectRows next store.rowBound

def rewind : Step Cursor Unit := do
  if !(← Step.own).isOpen then Step.fail .cursorClosed
  openFirst

/-- Give the position up. -/
def close : Step Cursor Unit :=
  Step.modifyOwn fun c => { c with isOpen := false, ready := [], nextPage := 0 }

end Cursor

end RowStore
