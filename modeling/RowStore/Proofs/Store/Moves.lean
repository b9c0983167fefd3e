/-
# RowStore.Proofs.Store.Moves -- what a call on the rows does to the store

Reaching pages changes a store in three ways only: a lock is requested, the pool
turns over (it drops clean pages and loads pages that the transaction has locked, as
they lie on disk), or a file grows by a page.  A file grows only for a transaction that
has all its pages to itself.  `Walks` is a finite number of such moves.  A change of a
row is a walk and then the exchange of one resident page, which the transaction holds
exclusively, for another version (`Edits`).

Invariants of the store are proved for these steps; that the calls are made of them
is said in `RowStore.Proofs.Store.Calls`.
-/
import Mathlib.Logic.Relation
import RowStore.Proofs.Lock.Exclusion
import RowStore.Proofs.Pool.Consistency
import RowStore.Proofs.Store.Files

namespace RowStore

set_option autoImplicit false

open Relation

namespace Store

/-- The transaction has some lock on the page. -/
def Holds (s : Store) (txn : TxnId) (id : PageId) : Prop :=
  ∃ mode, s.locks.heldMode txn id = some mode

/-- The transaction has every page of the file to itself. -/
def Owns (s : Store) (txn : TxnId) (file : TableFile) : Prop :=
  ∀ number, number < s.pageCount file →
    s.locks.heldMode txn ⟨file.id, number⟩ = some .exclusive

/-- What may become of one page in the pool while `txn` reaches pages: it stays, it is
dropped clean, or it is loaded under a lock of `txn`. -/
inductive Turnover (txn : TxnId) (s : Store) (pool : Pool) (id : PageId) : Prop where
  | stays (same : pool.resident? id = s.pool.resident? id)
  | dropped {frame : Frame} (gone : pool.resident? id = none)
      (there : s.pool.resident? id = some frame) (clean : frame.page.isDirty = false)
  | loaded {frame : Frame} {file : TableFile} (absent : s.pool.resident? id = none)
      (holds : s.Holds txn id) (registered : s.catalog.file id.table = .ok file)
      (read : s.readFromDisk file id = .ok frame.page) (there : pool.resident? id = some frame)

/-- One move of a transaction that reaches pages. -/
inductive Move (txn : TxnId) : Store → Store → Prop where
  | request (s : Store) (r : LockRequest) :
      Move txn s { s with locks := (s.locks.request txn r).2 }
  | turn (s : Store) {pool : Pool} (consistent : pool.Consistent)
      (capacity : pool.capacity = s.pool.capacity)
      (each : ∀ id, s.Turnover txn pool id) : Move txn s { s with pool }
  | grow (s : Store) {table : TableId} {file : TableFile}
      (registered : s.catalog.file table = .ok file) (owns : s.Owns txn file) :
      Move txn s (s.grown file)

/-- Finitely many moves. -/
abbrev Walks (txn : TxnId) (s after : Store) : Prop := ReflTransGen (Move txn) s after

/-- A walk on which no file grows. -/
structure Reads (txn : TxnId) (s after : Store) : Prop where
  walk : s.Walks txn after
  disk : after.disk = s.disk

/-- The page in one frame is exchanged; nothing else changes that another call could
see. -/
structure Replaces (s after : Store) (frame : Frame) : Prop where
  store : ∃ pool, after = { s with pool }
  consistent : after.pool.Consistent
  capacity : after.pool.capacity = s.pool.capacity
  residents : ∀ id, after.pool.resident? id =
    if id = frame.id then some frame else s.pool.resident? id

/-- A walk, and then a resident page that the transaction holds exclusively is exchanged
for another version. -/
def Edits (txn : TxnId) (s after : Store) (frame : Frame) (page : Page) : Prop :=
  ∃ mid, s.Walks txn mid ∧ mid.pool.resident? frame.id = some frame ∧
    mid.locks.heldMode txn frame.id = some .exclusive ∧ mid.Replaces after { frame with page }

/-- The same on a walk on which no file grows. -/
def Changes (txn : TxnId) (s after : Store) (frame : Frame) (page : Page) : Prop :=
  ∃ mid, s.Reads txn mid ∧ mid.pool.resident? frame.id = some frame ∧
    mid.locks.heldMode txn frame.id = some .exclusive ∧ mid.Replaces after { frame with page }

theorem walks_of_eq_pool {txn : TxnId} {s : Store} {pool : Pool} (consistent : pool.Consistent)
    (capacity : pool.capacity = s.pool.capacity)
    (same : ∀ id, pool.resident? id = s.pool.resident? id) : s.Walks txn { s with pool } :=
  .single (.turn s consistent capacity fun id => .stays (same id))

theorem Move.consistent {txn : TxnId} {s after : Store} (move : Move txn s after)
    (ok : s.pool.Consistent) : after.pool.Consistent := by
  cases move with
  | request => exact ok
  | turn consistent _ _ => exact consistent
  | grow => exact ok

theorem Walks.consistent {txn : TxnId} {s after : Store} (walk : s.Walks txn after)
    (ok : s.pool.Consistent) : after.pool.Consistent := by
  induction walk with
  | refl => exact ok
  | tail _ move ih => exact move.consistent ih

theorem Walks.capacity {txn : TxnId} {s after : Store} (walk : s.Walks txn after) :
    after.pool.capacity = s.pool.capacity := by
  induction walk with
  | refl => rfl
  | tail _ move ih =>
      cases move with
      | request => exact ih
      | turn _ capacity _ => exact capacity.trans ih
      | grow => exact ih

theorem Reads.refl (txn : TxnId) (s : Store) : s.Reads txn s := ⟨.refl, rfl⟩

theorem Reads.trans {txn : TxnId} {s mid after : Store} (first : s.Reads txn mid)
    (second : mid.Reads txn after) : s.Reads txn after :=
  ⟨first.walk.trans second.walk, second.disk.trans first.disk⟩

/-- Exchanging a page for itself is a walk. -/
theorem Replaces.reads {txn : TxnId} {s after : Store} {frame : Frame}
    (replaces : s.Replaces after frame) (there : s.pool.resident? frame.id = some frame) :
    s.Reads txn after := by
  obtain ⟨pool, rfl⟩ := replaces.store
  refine ⟨walks_of_eq_pool replaces.consistent replaces.capacity fun id => ?_, rfl⟩
  rw [replaces.residents]
  split
  · rename_i here
    rw [here, there]
  · rfl

/-- An exclusive lock outlasts every walk, its owner's own ones included. -/
theorem exclusive_of_walks {txn owner : TxnId} {s after : Store} {id : PageId}
    (walk : s.Walks txn after) (held : s.locks.heldMode owner id = some .exclusive) :
    after.locks.heldMode owner id = some .exclusive := by
  induction walk with
  | refl => exact held
  | tail _ move ih =>
      cases move with
      | request r => exact LockTable.heldMode_request_exclusive ih
      | turn => exact ih
      | grow => exact ih

theorem Move.grows {txn : TxnId} {s after : Store} (move : Move txn s after) : s.Grows after := by
  cases move with
  | request => exact ⟨rfl, fun _ => Nat.le_refl _⟩
  | turn => exact ⟨rfl, fun _ => Nat.le_refl _⟩
  | grow => exact grows_putImage _ _ _ _

theorem Walks.grows {txn : TxnId} {s after : Store} (walk : s.Walks txn after) : s.Grows after := by
  induction walk with
  | refl => exact .refl _
  | tail _ move ih => exact ih.trans move.grows

/-- Files that could be counted before a read can be counted after it. -/
theorem Reads.bounded {txn : TxnId} {s after : Store} (reads : s.Reads txn after)
    (bounded : s.Bounded) : after.Bounded :=
  bounded.congr (Walks.grows reads.walk).catalog reads.disk

theorem Replaces.grows {s after : Store} {frame : Frame} (replaces : s.Replaces after frame) :
    s.Grows after := by
  obtain ⟨pool, rfl⟩ := replaces.store
  exact ⟨rfl, fun _ => Nat.le_refl _⟩

/-- A resident page is the new version or was resident before. -/
theorem Replaces.resident_cases {s after : Store} {frame now : Frame} {id : PageId}
    (replaces : s.Replaces after frame) (found : after.pool.resident? id = some now) :
    id = frame.id ∧ now = frame ∨ id ≠ frame.id ∧ s.pool.resident? id = some now := by
  rw [replaces.residents] at found
  split at found
  · rename_i here
    cases found
    exact Or.inl ⟨here, rfl⟩
  · rename_i elsewhere
    exact Or.inr ⟨elsewhere, found⟩

theorem Replaces.again {s mid : Store} {frame : Frame} {pool : Pool}
    (replaces : s.Replaces mid frame) (consistent : pool.Consistent)
    (capacity : pool.capacity = mid.pool.capacity)
    (same : ∀ id, pool.resident? id = mid.pool.resident? id) :
    s.Replaces { mid with pool } frame := by
  obtain ⟨first, rfl⟩ := replaces.store
  exact ⟨⟨pool, rfl⟩, consistent, capacity.trans replaces.capacity,
    fun id => (same id).trans (replaces.residents id)⟩

theorem Edits.grows {txn : TxnId} {s after : Store} {frame : Frame} {page : Page}
    (edits : Edits txn s after frame page) : s.Grows after := by
  obtain ⟨mid, walk, -, -, replaces⟩ := edits
  exact (Walks.grows walk).trans replaces.grows

/-- The transaction has stored the values under this id, and the frame holds the page
with the row and the mark. -/
def Inserts (txn : TxnId) (values : List Value) (s after : Store) (id : RecordId)
    (changed : Frame) : Prop :=
  ∃ frame stored, frame.page.insert values = .ok (id, stored) ∧
    Edits txn s after frame (stored.withMark (some txn)) ∧
    changed = { frame with page := stored.withMark (some txn) }

theorem Edits.after_walk {txn : TxnId} {s mid after : Store} {frame : Frame} {page : Page}
    (walk : s.Walks txn mid) (edits : Edits txn mid after frame page) : Edits txn s after frame page := by
  obtain ⟨last, more, rest⟩ := edits
  exact ⟨last, walk.trans more, rest⟩

theorem Inserts.after_walk {txn : TxnId} {s mid after : Store} {values : List Value}
    {id : RecordId} {changed : Frame} (walk : s.Walks txn mid) (inserts : Inserts txn values mid after id changed) :
    Inserts txn values s after id changed := by
  obtain ⟨frame, stored, done, edits, same⟩ := inserts
  exact ⟨frame, stored, done, Edits.after_walk walk edits, same⟩

theorem Changes.edits {txn : TxnId} {s after : Store} {frame : Frame} {page : Page}
    (changes : Changes txn s after frame page) : Edits txn s after frame page := by
  obtain ⟨mid, reads, there, owned, replaces⟩ := changes
  exact ⟨mid, reads.walk, there, owned, replaces⟩

theorem Changes.disk {txn : TxnId} {s after : Store} {frame : Frame} {page : Page}
    (changes : Changes txn s after frame page) : after.disk = s.disk := by
  obtain ⟨mid, reads, -, -, replaces⟩ := changes
  obtain ⟨pool, rfl⟩ := replaces.store
  exact reads.disk

/-- A change that leaves the page as it was is a walk. -/
theorem Changes.reads {txn : TxnId} {s after : Store} {frame : Frame}
    (changes : Changes txn s after frame frame.page) : s.Reads txn after ∧
      after.locks.heldMode txn frame.id = some .exclusive := by
  obtain ⟨mid, reads, there, owned, replaces⟩ := changes
  refine ⟨reads.trans (replaces.reads there), ?_⟩
  obtain ⟨pool, rfl⟩ := replaces.store
  exact owned

end Store

end RowStore
