/-
# RowStore.Proofs.Store.Isolation -- transactions behave as the ledger says

A run is a list of calls by any transactions, in any order and whatever each of them
answers: inserts, deletes, scans, pages that are only read, and ends of transactions.
Beside the store a ledger is kept, in which nothing is written but what the calls
answered.  `isolation` says that the store and the ledger never differ: every table
file decodes to the committed rows, and a scan answers the committed rows with the
edits of its own transaction applied to them.

The one condition is that no file has more pages than page numbers can count.  It is
asked of the last state only, since files never shrink.
-/
import Mathlib
import RowStore.Proofs.Store.Fresh
import RowStore.Proofs.Store.Listing

namespace RowStore

set_option autoImplicit false

open Store

/-- What a transaction asks of the store. -/
inductive Call where
  | insert (table : TableId) (values : List Value)
  | delete (row : Row)
  | scan (table : TableId)
  | read (page : PageId) (mode : LockMode)
  | complete (keep : Bool)
deriving DecidableEq, Repr

/-- A store, and the ledger of the calls that led to it. -/
structure Recorded where
  store : Store
  ledger : Ledger

namespace Recorded

/-- A fresh store, of which nothing is recorded yet. -/
def start (s : Store) : Recorded := ⟨s, .empty⟩

/-- Carry out a call and record what it answers. -/
def step (r : Recorded) (txn : TxnId) : Call → Recorded
  | .insert table values =>
      match StoreAction.insertRow txn table values r.store with
      | (.ok id, after) => ⟨after, r.ledger.note txn (.insert id values)⟩
      | (.error _, after) => ⟨after, r.ledger⟩
  | .delete row =>
      match row.id?, StoreAction.deleteRow txn row r.store with
      | some id, (.ok (), after) => ⟨after, r.ledger.note txn (.delete id)⟩
      | _, (_, after) => ⟨after, r.ledger⟩
  | .scan table => ⟨(StoreAction.scan txn table r.store).2, r.ledger⟩
  | .read page mode => ⟨(StoreAction.readPage txn page mode r.store).2, r.ledger⟩
  | .complete keep =>
      match StoreAction.complete txn keep r.store with
      | (.ok (), after) => ⟨after, r.ledger.finish txn keep⟩
      | (.error _, after) => ⟨after, r.ledger⟩

def run (s : Store) (calls : List (TxnId × Call)) : Recorded :=
  calls.foldl (fun r call => r.step call.1 call.2) (start s)

theorem run_snoc (s : Store) (calls : List (TxnId × Call)) (txn : TxnId) (call : Call) :
    run s (calls ++ [(txn, call)]) = (run s calls).step txn call := by
  simp [run]

/-! ## One call -/

/-- What a call keeps of a store in order: the order, the lengths of the files at least,
and the agreement with the ledger. -/
structure Keeps (r after : Recorded) : Prop where
  orderly : after.store.Orderly
  grows : r.store.Grows after.store
  agrees : r.ledger.Agrees r.store → after.store.Bounded → after.ledger.Agrees after.store

variable {r : Recorded} {txn : TxnId}

theorem keeps_walk {after : Store} (ok : r.store.Orderly) (walk : r.store.Walks txn after) :
    r.Keeps ⟨after, r.ledger⟩ :=
  ⟨ok.walks walk, Walks.grows walk, fun agrees bounded => agrees.walks ok walk bounded⟩

theorem keeps_edits {after : Store} {frame : Frame} {page : Page} {e : Edit}
    (ok : r.store.Orderly) (edits : Edits txn r.store after frame (page.withMark (some txn)))
    (own : e.id.page = frame.id) (alters : frame.page.Alters page e.id.slot e.entry) :
    r.Keeps ⟨after, r.ledger.note txn e⟩ := by
  refine ⟨ok.edits edits fun _ => ?_, Edits.grows edits, fun agrees bounded => ?_⟩
  · exact ⟨alters.schema, alters.size, alters.sound⟩
  · exact agrees.edits ok edits own (fun _ => alters) bounded

/-- What a call has done that does not end its transaction: it has made a walk, or it has
made an edit, which is noted. -/
inductive Worked (txn : TxnId) (r : Recorded) : Recorded → Prop where
  | walk {after : Store} (walk : r.store.Walks txn after) : Worked txn r ⟨after, r.ledger⟩
  | edit {after : Store} {frame : Frame} {page : Page} {e : Edit}
      (edits : Edits txn r.store after frame (page.withMark (some txn)))
      (own : e.id.page = frame.id) (alters : frame.page.Alters page e.id.slot e.entry) :
      Worked txn r ⟨after, r.ledger.note txn e⟩

theorem worked_insert (ok : r.store.Orderly) (table : TableId) (values : List Value) :
    Worked txn r (r.step txn (.insert table values)) := by
  rcases ran : StoreAction.insertRow txn table values r.store with ⟨answer, after⟩
  simp only [step, ran]
  rcases StoreAction.insertRow_spec ok.pool ran with
    ⟨walk, stop, rfl⟩ | ⟨id, frame, stored, rfl, done, edits⟩
  · exact .walk walk
  · obtain ⟨named, sound⟩ := ok.page_of_edits edits
    obtain ⟨page, -, -, -, alters⟩ := sound.insert done
    exact .edit edits (page.trans named) alters

theorem worked_delete (ok : r.store.Orderly) (row : Row) :
    Worked txn r (r.step txn (.delete row)) := by
  rcases ran : StoreAction.deleteRow txn row r.store with ⟨answer, after⟩
  simp only [step, ran]
  rcases StoreAction.deleteRow_spec ok.pool ran with
    ⟨walk, stop, rfl⟩ | ⟨id, frame, rest, rfl, known, done, edits⟩
  · cases row.id? <;> exact .walk walk
  · simp only [known]
    obtain ⟨named, sound⟩ := ok.page_of_edits edits
    obtain ⟨page, -, alters⟩ := sound.delete done
    exact .edit edits (page.trans named) alters

theorem worked_step (ok : r.store.Orderly) (txn : TxnId) {call : Call}
    (goes_on : ∀ keep, call ≠ .complete keep) : Worked txn r (r.step txn call) := by
  cases call with
  | insert table values => exact worked_insert ok table values
  | delete row => exact worked_delete ok row
  | scan table => exact .walk (StoreAction.scan_spec ok.pool rfl).1.walk
  | read page mode => exact .walk (StoreAction.readPage_spec ok.pool rfl).1.walk
  | complete keep => exact absurd rfl (goes_on keep)

theorem keeps_worked {after : Recorded} (ok : r.store.Orderly) (worked : Worked txn r after) :
    r.Keeps after := by
  cases worked with
  | walk walk => exact keeps_walk ok walk
  | edit edits own alters => exact keeps_edits ok edits own alters

theorem grows_complete {s : Store} (ok : s.Orderly) (txn : TxnId) (keep : Bool) :
    s.Grows (StoreAction.complete txn keep s).2 := by
  cases keep with
  | true =>
      obtain ⟨mid, ended, flushes, -⟩ := StoreAction.complete_commit txn ok
      have grows := grows_flushes flushes
      rw [ended]
      exact ⟨grows.catalog, grows.length⟩
  | false =>
      obtain ⟨pool, ended, -, -⟩ := StoreAction.complete_rollback txn ok
      rw [ended]
      exact ⟨rfl, fun _ => Nat.le_refl _⟩

theorem keeps_complete (ok : r.store.Orderly) (keep : Bool) :
    r.Keeps (r.step txn (.complete keep)) := by
  have grows := grows_complete ok txn keep
  obtain ⟨after, ended, ordered⟩ := StoreAction.Orderly.complete ok txn keep
  simp only [step]
  rw [ended] at grows ⊢
  refine ⟨ordered, grows, fun agrees _ => ?_⟩
  have finished := agrees.complete ok txn keep
  rw [ended] at finished
  exact finished

/-- **Every call** keeps the store in order and in agreement with the ledger. -/
theorem keeps_step (ok : r.store.Orderly) (txn : TxnId) (call : Call) :
    r.Keeps (r.step txn call) := by
  by_cases ends : ∃ keep, call = .complete keep
  · obtain ⟨keep, rfl⟩ := ends
    exact keeps_complete ok keep
  · exact keeps_worked ok (worked_step ok txn fun keep same => ends ⟨keep, same⟩)

/-! ## Runs -/

theorem orderly_run {s : Store} (fresh : s.Fresh) (calls : List (TxnId × Call)) :
    (run s calls).store.Orderly := by
  induction calls using List.reverseRecOn with
  | nil => exact fresh.blank.orderly
  | append_singleton calls call ih =>
      rw [run_snoc]
      exact (keeps_step ih call.1 call.2).orderly

theorem agrees_run {s : Store} (fresh : s.Fresh) (calls : List (TxnId × Call))
    (bounded : (run s calls).store.Bounded) :
    (run s calls).ledger.Agrees (run s calls).store := by
  induction calls using List.reverseRecOn with
  | nil => exact fresh.blank.agrees
  | append_singleton calls call ih =>
      rw [run_snoc] at bounded ⊢
      have keeps := keeps_step (orderly_run fresh calls) call.1 call.2
      exact keeps.agrees (ih (keeps.grows.bounded bounded)) bounded

theorem grows_run {s : Store} (fresh : s.Fresh) (calls : List (TxnId × Call)) :
    s.Grows (run s calls).store := by
  induction calls using List.reverseRecOn with
  | nil => exact .refl s
  | append_singleton calls call ih =>
      rw [run_snoc]
      exact ih.trans (keeps_step (orderly_run fresh calls) call.1 call.2).grows

/-- **Isolation and atomicity.**  After every run over fresh tables, as long as the pages
of each file can be counted: each table file decodes to exactly the committed rows, and
every scan that succeeds answers, in the order of the ids, exactly the committed rows
with the edits of its own transaction applied. -/
theorem isolation {s : Store} (fresh : s.Fresh) (calls : List (TxnId × Call))
    (bounded : (run s calls).store.Bounded) :
    (∀ table file, (run s calls).store.catalog.file table = .ok file →
      ∃ rows, (run s calls).store.decodeFile file = .ok rows ∧
        (run s calls).ledger.committed.Listing table rows) ∧
    ∀ txn table rows, (StoreAction.scan txn table (run s calls).store).1 = .ok rows →
      ((run s calls).ledger.view txn).Listing table rows := by
  have ok := orderly_run fresh calls
  have agrees := agrees_run fresh calls bounded
  refine ⟨fun table file registered => agrees.decodeFile ok registered,
    fun txn table rows answered => ?_⟩
  rcases ran : StoreAction.scan txn table (run s calls).store with ⟨answer, after⟩
  rw [ran] at answered
  subst answered
  exact agrees.scan ok ran bounded

/-- A scan has to wait for the first transaction, and another for the second, whose row is
rolled back in the end. -/
theorem isolation_two_writers :
    let calls : List (TxnId × Call) :=
      [(⟨1⟩, .insert TableFile.flags.id [.bool true]), (⟨2⟩, .scan TableFile.flags.id),
        (⟨1⟩, .complete true), (⟨2⟩, .insert TableFile.flags.id [.bool false]),
        (⟨3⟩, .scan TableFile.flags.id), (⟨2⟩, .complete false)]
    ((run .flags calls).ledger.view ⟨3⟩).Listing TableFile.flags.id
      [⟨some ⟨⟨TableFile.flags.id, 0⟩, 0⟩, [.bool true]⟩] := by
  intro calls
  have bounded : (run .flags calls).store.Bounded := by
    refine bounded_of_flags (grows_run fresh_flags calls).catalog ?_
    have pages : (run .flags calls).store.wholePages TableFile.flags = 2 := by cbv
    rw [pages]
    decide
  refine (isolation fresh_flags calls bounded).2 ⟨3⟩ TableFile.flags.id _ ?_
  cbv

end Recorded

end RowStore
