/-
# RowStore.Store.Access -- reaching a page on behalf of a transaction

A page is locked first and looked up then.  If it is not resident it is read from
its table's file, checked and brought into the pool.  `readPage` answers the page
as it is; `changePage` runs a page action on it under an exclusive lock, and the
pool keeps the page as the action left it, even when the action fails.
-/
import RowStore.Store

namespace RowStore

set_option autoImplicit false

namespace TableFile

/-- A page of another table does not belong to this file. -/
def checkOwner (file : TableFile) (page : PageId) : Except Fault Unit :=
  if page.table = file.id then .ok () else .error (.tableMismatch file.id page.table)

end TableFile

namespace Store

/-- Read a page from its file, not through the pool. -/
def readFromDisk (s : Store) (file : TableFile) (id : PageId) : Except Fault Page :=
  match file.checkOwner id with
  | .error fault => .error fault
  | .ok () =>
      if s.pageCount file ≤ id.number then .error (.pageNotFound id)
      else
        match (s.pageFile file).read id.number file.pageSize with
        | .error fault => .error (.file fault)
        | .ok image => Page.load id file.schema image

/-- Write a page's image to its place in the file.  Pages of a store are so small that no
offset wraps around or is refused (`PageFile.write_eq_put_of_small`). -/
def writeToDisk (s : Store) (file : TableFile) (page : Page) : Except Fault Store :=
  match file.checkOwner page.id with
  | .error fault => .error fault
  | .ok () =>
      match (s.pageFile file).put page.id.number page.image with
      | .error fault => .error (.file fault)
      | .ok after => .ok (s.setPageFile file after)

end Store

namespace StoreAction

/-- Get a lock, or stop because it has to be waited for or never could be.

A call that has to wait ends here, with what it has done so far, and is not taken up again:
transactions interleave by whole calls. -/
def acquire (txn : TxnId) (request : LockRequest) : StoreAction Unit := do
  let s ← get
  let (verdict, locks) := s.locks.request txn request
  set { s with locks }
  match verdict with
  | .granted => pure ()
  | .deadlock => Action.fail (.deadlock txn request.page request.mode)
  | .wait => throw (.blocked txn request)

/-- The resident page, which counts as a use. -/
def lookup (id : PageId) : StoreAction (Option Frame) := do
  let s ← get
  let (found, pool) := s.pool.lookup id
  set { s with pool }
  return found

/-- Bring a page into the pool. -/
def bring (page : Page) : StoreAction Frame := do
  let s ← get
  let (frame, pool) ← Action.ofExcept (s.pool.bring page)
  set { s with pool }
  return frame

/-- The resident page, brought in from its file if need be. -/
def fetch (id : PageId) : StoreAction Frame := do
  match ← lookup id with
  | some frame => return frame
  | none =>
      let file ← tableFile id.table
      let page ← query fun s => s.readFromDisk file id
      bring page

/-- Lock a page and get it. -/
def readPage (txn : TxnId) (id : PageId) (mode : LockMode) : StoreAction Frame := do
  acquire txn ⟨id, mode⟩
  fetch id

/-- Make a page resident as it is given, in place of any other version of it. -/
def install (frame : Frame) : StoreAction Unit := do
  let s ← get
  let pool ← Action.ofExcept (s.pool.install frame)
  set { s with pool }

/-- Exchange a resident page for a changed version, which does not count as a use. -/
def storePage (page : Page) : StoreAction Unit :=
  modifyPool fun pool =>
    match pool.directory.get? page.id with
    | some index => pool.setPage index page
    | none => pool

/-- Lock a page exclusively and run an action on it. -/
def changePage {α : Type} (txn : TxnId) (id : PageId) (action : PageAction α) :
    StoreAction (α × Frame) := do
  let frame ← readPage txn id .exclusive
  let (answer, page) := action frame.page
  storePage page
  match answer with
  | .ok a => return (a, { frame with page })
  | .error fault => Action.fail fault

end StoreAction

end RowStore
