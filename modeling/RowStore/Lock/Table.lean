/-
# RowStore.Lock.Table -- page locks, pending requests and the verdict on a request

The table keeps, per page, the locks that are held and the number of requests
parked there, and, per transaction, the last request that had to wait.  A request
is granted when no other transaction holds a conflicting lock.  Otherwise the
transaction would wait for those that do; `waitCloses` follows the wait-for
relation from them through the registered requests, and when it meets the
requester again the verdict is a deadlock instead of a wait.

The search spends every registration at most once, which is why it ends and why it
needs no separate record of what it has visited.
-/
import RowStore.FinMap
import RowStore.Identity
import RowStore.Lock.Mode

namespace RowStore

set_option autoImplicit false

/-- A granted lock on some page. -/
structure Lock where
  txn : TxnId
  mode : LockMode
deriving DecidableEq, Repr

/-- The locks on one page.  `bell` names the signal on which requests for the page
park; `waiters` counts them. -/
structure LockEntry where
  bell : Nat
  holders : List Lock
  waiters : Nat
deriving DecidableEq, Repr

/-- What a transaction asked for. -/
structure LockRequest where
  page : PageId
  mode : LockMode
deriving DecidableEq, Repr

/-- The answer to one attempt to get a lock. -/
inductive Verdict where
  | granted
  | wait
  | deadlock
deriving DecidableEq, Repr

namespace Verdict

def name : Verdict → String
  | .granted => "Granted"
  | .wait => "Wait"
  | .deadlock => "Deadlock"

end Verdict

structure LockTable where
  pages : FinMap PageId LockEntry
  /-- The pending request of every transaction that was told to wait. -/
  waiting : FinMap TxnId LockRequest
  /-- The bell of the next page entry. -/
  nextBell : Nat

namespace LockEntry

/-- An entry that neither a lock nor a parked request needs. -/
def isIdle (e : LockEntry) : Bool := e.holders.isEmpty && e.waiters == 0

def heldBy (e : LockEntry) (txn : TxnId) : Option LockMode :=
  (e.holders.find? fun l => l.txn = txn).map Lock.mode

end LockEntry

namespace LockTable

def empty : LockTable := ⟨∅, ∅, 0⟩

/-- The locks on a page, in the order they were granted. -/
def holders (t : LockTable) (page : PageId) : List Lock :=
  match t.pages.get? page with
  | some entry => entry.holders
  | none => []

def heldMode (t : LockTable) (txn : TxnId) (page : PageId) : Option LockMode :=
  ((t.holders page).find? fun l => l.txn = txn).map Lock.mode

def holds (t : LockTable) (txn : TxnId) (page : PageId) : Bool := (t.heldMode txn page).isSome

/-- The other transactions whose locks stand against the request. -/
def blockers (t : LockTable) (txn : TxnId) (request : LockRequest) : List TxnId :=
  ((t.holders request.page).filter fun l =>
    decide (l.txn ≠ txn) && !l.mode.compatible request.mode).map Lock.txn

/-! ## Deadlock detection -/

/-- Whether `target` is met from the transactions on the stack by following the
registered requests in `pending` to those that block them. -/
def reaches (t : LockTable) (target : TxnId) (pending : FinMap TxnId LockRequest) :
    List TxnId → Bool
  | [] => false
  | txn :: stack =>
      if txn = target then true
      else
        match _found : pending.get? txn with
        | none => t.reaches target pending stack
        | some request =>
            t.reaches target (pending.erase txn) (t.blockers txn request ++ stack)
termination_by stack => (pending.size, stack.length)
decreasing_by
  · exact Prod.Lex.right _ (by simp)
  · exact Prod.Lex.left _ _ (FinMap.size_erase_lt _found)

/-- Whether waiting for these transactions would close a cycle through `txn`. -/
def waitCloses (t : LockTable) (txn : TxnId) (blocking : List TxnId) : Bool :=
  t.reaches txn t.waiting blocking

/-! ## Requests -/

/-- Grant a lock: strengthen the one the transaction has, or add one. -/
def addHolder (holders : List Lock) (txn : TxnId) (mode : LockMode) : List Lock :=
  if holders.any fun l => l.txn = txn then
    holders.map fun l => if l.txn = txn then { l with mode } else l
  else holders ++ [⟨txn, mode⟩]

def grant (t : LockTable) (txn : TxnId) (request : LockRequest) : LockTable :=
  match t.pages.get? request.page with
  | some entry =>
      { t with
        pages := t.pages.insert request.page
          { entry with holders := addHolder entry.holders txn request.mode } }
  | none =>
      { t with
        pages := t.pages.insert request.page ⟨t.nextBell, [⟨txn, request.mode⟩], 0⟩
        nextBell := t.nextBell + 1 }

/-- Forget the pending request of a transaction. -/
def unregister (t : LockTable) (txn : TxnId) : LockTable :=
  { t with waiting := t.waiting.erase txn }

def register (t : LockTable) (txn : TxnId) (request : LockRequest) : LockTable :=
  { t with waiting := t.waiting.insert txn request }

/-- One attempt to get a lock. -/
def request (t : LockTable) (txn : TxnId) (r : LockRequest) : Verdict × LockTable :=
  let served := (t.heldMode txn r.page).any fun held => held.covers r.mode
  if served then (.granted, t.unregister txn)
  else
    let blocking := t.blockers txn r
    if blocking.isEmpty then (.granted, (t.grant txn r).unregister txn)
    else if t.waitCloses txn blocking then (.deadlock, t.unregister txn)
    else (.wait, t.register txn r)

/-! ## Releases -/

/-- Drop the entry of a page if nothing needs it. -/
def sweep (t : LockTable) (page : PageId) : LockTable :=
  match t.pages.get? page with
  | some entry => if entry.isIdle then { t with pages := t.pages.erase page } else t
  | none => t

/-- Release the transaction's lock on a page; the answer is whether it had one. -/
def release (t : LockTable) (txn : TxnId) (page : PageId) : Bool × LockTable :=
  match t.pages.get? page with
  | none => (false, t)
  | some entry =>
      let kept := entry.holders.filter fun l => decide (l.txn ≠ txn)
      let after := { t with pages := t.pages.insert page { entry with holders := kept } }
      (decide (kept.length < entry.holders.length), after.sweep page)

/-- The pages on which the transaction holds a lock. -/
def heldPages (t : LockTable) (txn : TxnId) : List PageId :=
  (t.pages.entries.filter fun e => e.2.holders.any fun l => l.txn = txn).map Prod.fst

/-- Release all locks of a transaction and forget its pending request.  The answer
is the pages that were released. -/
def releaseAll (t : LockTable) (txn : TxnId) : List PageId × LockTable :=
  let pages := t.heldPages txn
  (pages, pages.foldl (fun table page => (table.release txn page).2) (t.unregister txn))

/-- The locks of a transaction in page order. -/
def locksOf (t : LockTable) (txn : TxnId) : List (PageId × LockMode) :=
  (PageId.sort (t.heldPages txn)).filterMap fun page =>
    (t.heldMode txn page).map fun mode => (page, mode)

end LockTable

end RowStore
