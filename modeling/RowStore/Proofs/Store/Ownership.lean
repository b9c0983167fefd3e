/-
# RowStore.Proofs.Store.Ownership -- unwritten changes belong to who has the page alone

The mark on a resident page names the transaction whose changes it carries, and the lock
table says who may use the page; the two are kept apart and changed by different calls.
In every reachable store they agree: whoever has marked a page holds it exclusively, and
nobody else has a lock on it (`Reachable.marked_alone`).

So the end of a transaction, which goes by the marks alone, touches no page that another
transaction has locked, be it to write it or to drop it.
-/
import RowStore.Proofs.Store.Effects

namespace RowStore

set_option autoImplicit false

open Relation

namespace Store

/-- A page is as resident as it was, and the same bytes lie in its place in the file. -/
structure KeepsPage (s after : Store) (id : PageId) : Prop where
  resident : after.pool.resident? id = s.pool.resident? id
  image : ∀ file, s.catalog.file id.table = .ok file →
    after.imageAt file id.number = s.imageAt file id.number

/-- What the end of a transaction has done to a store: it ran through, or the disk broke it
off after some pages were written. -/
inductive Ending (txn : TxnId) (s : Store) : Store → Prop where
  | ended (keep : Bool) : Ending txn s (StoreAction.complete txn keep s).2
  | broken {after : Store} (flushes : ReflTransGen (Flush txn) s after) : Ending txn s after

variable {txn other : TxnId} {s after : Store} {id : PageId}

theorem KeepsPage.refl (s : Store) (id : PageId) : s.KeepsPage s id := ⟨rfl, fun _ _ => rfl⟩

/-- Pages with changes of a transaction are not those that another one has locked. -/
theorem KeepsPage.flush (ok : s.Orderly) (apart : other ≠ txn) (holds : s.Holds other id)
    (flush : Flush txn s after) : s.KeepsPage after id := by
  obtain ⟨occupied, marked, registered⟩ := flush
  rename_i index frame file
  have there := ok.pool.resident?_eq_some.2 ⟨index, occupied, rfl⟩
  have elsewhere : id ≠ frame.id := by
    rintro rfl
    exact apart (ok.owner_eq there holds marked).symm
  obtain ⟨held, listed, -, size, -⟩ := ok.belongs frame.id frame there
  have same : held = file := Except.ok.inj (listed.symm.trans registered)
  subst same
  obtain ⟨-, residents⟩ := residents_flushed held ok.pool occupied
  refine ⟨?_, fun file found => ?_⟩
  · rw [residents, if_neg elsewhere]
  · exact (imageAt_putImage ok.tables registered size found).trans (if_neg elsewhere)

theorem KeepsPage.flushes (ok : s.Orderly) (apart : other ≠ txn) (holds : s.Holds other id)
    (flushes : ReflTransGen (Flush txn) s after) : s.KeepsPage after id := by
  induction flushes with
  | refl => exact .refl s id
  | @tail mid last first flush ih =>
      have still : mid.Holds other id := by
        rw [Holds, locks_flushes first]
        exact holds
      have next := KeepsPage.flush (ok.flushes first) apart still flush
      have catalog := (grows_flushes first).catalog
      exact ⟨next.resident.trans ih.resident, fun file found =>
        (next.image file (catalog ▸ found)).trans (ih.image file found)⟩

theorem KeepsPage.ending (ok : s.Orderly) (apart : other ≠ txn) (holds : s.Holds other id)
    (ending : Ending txn s after) : s.KeepsPage after id := by
  cases ending with
  | broken flushes => exact KeepsPage.flushes ok apart holds flushes
  | ended keep =>
      cases keep with
      | true =>
          obtain ⟨mid, ran, flushes, -⟩ := StoreAction.complete_commit txn ok
          have kept := KeepsPage.flushes ok apart holds flushes
          rw [ran]
          exact ⟨kept.resident, kept.image⟩
      | false =>
          obtain ⟨pool, ran, -, residents⟩ := StoreAction.complete_rollback txn ok
          rw [ran]
          refine ⟨?_, fun _ _ => rfl⟩
          exact (residents id).trans (ok.filter_foreign holds (Ne.symm apart))

/-- **Marks and locks agree.**  In every reachable store, a page marked by a transaction is
locked by it exclusively and by nobody else; and the end of a transaction leaves each page
that another transaction has locked, marked or not, as it is in the pool and on disk. -/
theorem Reachable.marked_alone (reachable : s.Reachable) :
    (∀ id frame txn, s.pool.resident? id = some frame → frame.page.mark = some txn →
      s.locks.heldMode txn id = some .exclusive ∧
        ∀ other, other ≠ txn → s.locks.heldMode other id = none) ∧
    ∀ txn after, Ending txn s after → ∀ other id, other ≠ txn → s.Holds other id →
      s.KeepsPage after id := by
  have ok := reachable.orderly
  refine ⟨fun id frame txn there marked => ?_, fun txn after ending other id apart holds => ?_⟩
  · have owned := ok.owned id frame txn there marked
    exact ⟨owned, fun other apart =>
      LockTable.heldMode_eq_none_of_exclusive (ok.locks id) owned apart⟩
  · exact KeepsPage.ending ok apart holds ending

/-- A row was inserted into the only page of a table, and a scan waits for it.  When the
scanning transaction gives up, the new page stays where it is. -/
theorem marked_alone_insert :
    let id : PageId := ⟨TableFile.flags.id, 0⟩
    let s := (flags.carryOut ⟨1⟩ (.insert TableFile.flags.id [.bool true])).carryOut ⟨2⟩
      (.scan TableFile.flags.id)
    s.Reachable ∧ s.locks.heldMode ⟨1⟩ id = some .exclusive ∧
      s.locks.heldMode ⟨2⟩ id = none ∧ s.KeepsPage (StoreAction.complete ⟨2⟩ false s).2 id := by
  have marked : (((flags.carryOut ⟨1⟩ (.insert TableFile.flags.id [.bool true])).carryOut ⟨2⟩
      (.scan TableFile.flags.id)).pool.resident? ⟨TableFile.flags.id, 0⟩).map
        (fun frame => frame.page.mark) = some (some ⟨1⟩) := by cbv
  obtain ⟨frame, there, mark⟩ := Option.map_eq_some_iff.1 marked
  intro id s
  have reachable : s.Reachable := ((Reachable.prepared fresh_flags.prepared).called _ _).called _ _
  obtain ⟨owned, endings⟩ := reachable.marked_alone
  obtain ⟨exclusive, alone⟩ := owned id frame ⟨1⟩ there mark
  have apart : (⟨2⟩ : TxnId) ≠ ⟨1⟩ := by decide
  exact ⟨reachable, exclusive, alone ⟨2⟩ apart,
    endings ⟨2⟩ _ (.ended false) ⟨1⟩ id (Ne.symm apart) ⟨_, exclusive⟩⟩

end Store

end RowStore
