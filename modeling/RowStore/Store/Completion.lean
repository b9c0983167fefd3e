/-
# RowStore.Store.Completion -- writing pages back and ending a transaction

A commit writes every page that carries the transaction's mark, a rollback drops
those pages from the pool; both then release the transaction's locks.  A commit that
cannot write a page stops there and keeps the locks.  `commit` is what a client
asks for: when it cannot be carried out the transaction is rolled back instead.
-/
import RowStore.Store.Access

namespace RowStore

set_option autoImplicit false

namespace StoreAction

/-- Write the page in a frame if it has unwritten changes, and clear its mark. -/
def writeBack (index : Nat) : StoreAction Unit := do
  match (← get).pool.frame? index with
  | none => pure ()
  | some frame =>
      if frame.page.isDirty then do
        let file ← tableFile frame.page.id.table
        let written ← query fun s => s.writeToDisk file frame.page
        set written
        modifyPool fun pool => pool.setPage index (frame.page.withMark none)

/-- Write every page the transaction changed, in the order of the frames. -/
def flushChangesOf (txn : TxnId) : StoreAction Unit := do
  ((← get).pool.dirtiedBy txn).forM fun e => writeBack e.1

/-- Write one page if it is resident and changed; a look at it counts as a use. -/
def flushPage (id : PageId) : StoreAction Unit := do
  match ← lookup id with
  | none => pure ()
  | some _ =>
      match (← get).pool.directory.get? id with
      | some index => writeBack index
      | none => pure ()

/-- Write every changed page, in the order of the frames. -/
def flush : StoreAction Unit := do
  ((← get).pool.occupied).forM fun e => writeBack e.1

def discardPage (id : PageId) : StoreAction Unit := modifyPool fun pool => pool.remove id

/-- Drop every page the transaction changed. -/
def dropPages (txn : TxnId) : StoreAction Unit :=
  modifyPool fun pool => (pool.dirtiedBy txn).foldl (fun p e => p.remove e.2.id) pool

def releaseAll (txn : TxnId) : StoreAction Unit :=
  modify fun s => { s with locks := (s.locks.releaseAll txn).2 }

/-- Release one lock before the transaction ends. -/
def releasePage (txn : TxnId) (page : PageId) : StoreAction Bool := do
  let s ← get
  let (released, locks) := s.locks.release txn page
  set { s with locks }
  return released

/-- End a transaction, keeping its changes or dropping them. -/
def complete (txn : TxnId) (keep : Bool) : StoreAction Unit := do
  if keep then flushChangesOf txn else dropPages txn
  releaseAll txn

def rollback (txn : TxnId) : StoreAction Unit := complete txn false

/-- Keep the changes of a transaction, or drop them all if they cannot be written. -/
def commit (txn : TxnId) : StoreAction Unit := do
  try complete txn true
  catch stop => do
    rollback txn
    throw stop

/-- Start a transaction. -/
def begin : StoreAction TxnId := do
  let s ← get
  let (txn, counter) := s.counter.issue
  set { s with counter }
  return txn

end StoreAction

end RowStore
