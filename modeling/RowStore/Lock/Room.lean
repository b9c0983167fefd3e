/-
# RowStore.Lock.Room -- requests that park until a lock is released

A `LockRoom` is a lock table together with the requests that are parked.  A
request that has to wait counts itself in at the page and parks on the bell of the
page's entry.  A release rings the bell: it marks the requests parked on it, and
each of them later resumes, which counts it out and tries again.  The counts keep
an entry alive while a request depends on its bell.
-/
import RowStore.Lock.Table

namespace RowStore

set_option autoImplicit false

/-- A request that waits for a bell.  `rung` is set once the bell has rung. -/
structure ParkedRequest where
  txn : TxnId
  request : LockRequest
  bell : Nat
  rung : Bool
deriving DecidableEq, Repr

structure LockRoom where
  table : LockTable
  parked : List ParkedRequest

namespace LockRoom

def empty : LockRoom := ⟨.empty, []⟩

def isParked (room : LockRoom) (txn : TxnId) : Bool := room.parked.any fun p => p.txn = txn

/-- Count a request in at its page and park it. -/
def park (room : LockRoom) (txn : TxnId) (r : LockRequest) : LockRoom :=
  match room.table.pages.get? r.page with
  | none => room
  | some entry =>
      ⟨{ room.table with
          pages := room.table.pages.insert r.page { entry with waiters := entry.waiters + 1 } },
        room.parked ++ [⟨txn, r, entry.bell, false⟩]⟩

/-- One attempt to get a lock that parks when it has to wait. -/
def attempt (room : LockRoom) (txn : TxnId) (r : LockRequest) : Verdict × LockRoom :=
  let (verdict, table) := room.table.request txn r
  let after : LockRoom := { room with table }
  match verdict with
  | .wait => (.wait, after.park txn r)
  | verdict => (verdict, after)

/-- Ring a bell: every request parked on it may resume. -/
def ring (room : LockRoom) (bell : Nat) : LockRoom :=
  { room with
    parked := room.parked.map fun p => if p.bell = bell then { p with rung := true } else p }

def release (room : LockRoom) (txn : TxnId) (page : PageId) : Bool × LockRoom :=
  let (released, table) := room.table.release txn page
  let after : LockRoom := { room with table }
  match released, room.table.pages.get? page with
  | true, some entry => (true, after.ring entry.bell)
  | released, _ => (released, after)

/-- Release every lock of a transaction; the answer is how many there were. -/
def releaseAll (room : LockRoom) (txn : TxnId) : Nat × LockRoom :=
  let pages := room.table.heldPages txn
  let start : LockRoom := { room with table := room.table.unregister txn }
  (pages.length, pages.foldl (fun r page => (r.release txn page).2) start)

/-- Count a request out at its page. -/
def countOut (table : LockTable) (page : PageId) : LockTable :=
  match table.pages.get? page with
  | none => table
  | some entry =>
      LockTable.sweep
        { table with
          pages := table.pages.insert page { entry with waiters := entry.waiters - 1 } }
        page

/-- A parked request goes on: it is counted out and tries again. -/
def resume (room : LockRoom) (p : ParkedRequest) : Verdict × LockRoom :=
  let awake : LockRoom := ⟨countOut room.table p.request.page, room.parked.erase p⟩
  awake.attempt p.txn p.request

/-- The requests whose bell has rung, by transaction. -/
def wakened (room : LockRoom) : List ParkedRequest :=
  (room.parked.filter ParkedRequest.rung).mergeSort fun p q => decide (p.txn.value ≤ q.txn.value)

/-- Let every request whose bell has rung go on, in the order of the transactions. -/
def resumeAll (room : LockRoom) : List (ParkedRequest × Verdict) × LockRoom :=
  room.wakened.foldl
    (fun state p =>
      let (verdict, after) := state.2.resume p
      (state.1 ++ [(p, verdict)], after))
    ([], room)

end LockRoom

end RowStore
