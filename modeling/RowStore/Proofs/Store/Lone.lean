/-
# RowStore.Proofs.Store.Lone -- what a lone transaction writes

A transaction is `Lone` while no other one has a lock.  Whatever it inserts goes into the
lowest free slot of a page, is noted in the ledger, and leaves unwritten changes on no other
page than those that had them (`Lone.inserted`).  When it commits, nothing is locked and
nothing is left to be written (`Lone.commit`).
-/
import RowStore.Proofs.Store.Alone
import RowStore.Proofs.Store.Places
import RowStore.Proofs.Store.SameTables

namespace RowStore

set_option autoImplicit false

open Store

variable {txn : TxnId} {s after : Store} {ℓ : Ledger}

namespace Ledger

/-- All that is asked of a store in which one transaction alone has unwritten changes. -/
structure Lone (ℓ : Ledger) (s : Store) (txn : TxnId) : Prop where
  orderly : s.Orderly
  agrees : ℓ.Agrees s
  bounded : s.Bounded
  locks : ∀ page, LockTable.others (s.locks.holders page) txn = []

theorem Served.lone (served : ℓ.Served s txn) : ℓ.Lone s txn :=
  ⟨served.orderly, served.agrees, served.bounded, served.unhindered.locks⟩

/-! ## Inserting -/

/-- The transaction has inserted the row under the id. -/
structure Inserted (ℓ : Ledger) (txn : TxnId) (s after : Store) (id : RecordId)
    (values : List Value) : Prop where
  lone : (ℓ.note txn (.insert id values)).Lone after txn
  lowest : (ℓ.view txn).LowestFree id
  tables : s.SameTables after
  capacity : after.pool.capacity = s.pool.capacity
  marked : ∀ page frame, after.pool.resident? page = some frame → frame.page.mark ≠ none →
    page = id.page ∨ s.pool.resident? page = some frame

/-- **An insert** of a lone transaction, if it succeeds. -/
theorem Lone.inserted (lone : ℓ.Lone s txn) {table : TableId} {values : List Value} {id : RecordId}
    (run : StoreAction.insertRow txn table values s = (.ok id, after)) (bounded : after.Bounded) :
    ℓ.Inserted txn s after id values := by
  obtain ⟨ok, agrees, -, locks⟩ := lone
  obtain ⟨-, stop, failed⟩ | ⟨_, frame, stored, same, done, edits⟩ :=
    StoreAction.insertRow_spec ok.pool run
  · cases failed
  cases same
  obtain ⟨named, sound⟩ := ok.page_of_edits edits
  obtain ⟨own, within, free, below, alters⟩ := sound.insert done
  have orderly := ok.edits edits fun _ => ⟨alters.schema, alters.size, alters.sound⟩
  have agreed : (ℓ.note txn (.insert id values)).Agrees after :=
    agrees.edits ok edits (own.trans named) (fun _ => alters) bounded
  have tables := Edits.sameTables edits
  -- The transaction finds the page as it should see it.
  obtain ⟨mid, walk, there, held, replaces⟩ := edits
  have before := ok.walks walk
  have now := agrees.walks ok walk (replaces.grows.bounded bounded)
  have seen : ∀ slot, frame.page.at? slot = ℓ.view txn ⟨id.page, slot⟩ := by
    rw [own, named]
    exact now.seen before there ⟨_, held⟩
  have same : after.locks = mid.locks := by
    obtain ⟨pool, rfl⟩ := replaces.store
    rfl
  refine ⟨⟨orderly, agreed, bounded, fun page => ?_⟩, ⟨?_, fun slot lower => ?_⟩, tables, ?_,
    fun page now found changed => ?_⟩
  · rw [same, others_of_walks walk, locks]
  · refine Option.not_isSome_iff_eq_none.1 fun taken => ?_
    rw [← seen, sound.isSome_at?, Page.isUsed_iff, free] at taken
    cases taken.2
  · rw [← seen, sound.isSome_at?, Page.isUsed_iff]
    exact ⟨Nat.lt_trans lower within, below slot lower⟩
  · rw [replaces.capacity, Walks.capacity walk]
  · rcases replaces.resident_cases found with ⟨here, -⟩ | ⟨-, earlier⟩
    · exact Or.inl (here.trans (own.trans named).symm)
    · exact Or.inr (resident_of_walks walk earlier changed)

/-- **An insert into a table with room**, in the store and in the ledger. -/
theorem Served.insert_room (served : ℓ.Served s txn) {file : TableFile} {values : List Value}
    {bytes : List UInt8} (registered : s.catalog.file file.id = .ok file) {number slot : Nat}
    (full : ∀ n, n < number → ℓ.Full txn file n) (inside : number < s.pageCount file)
    (within : slot < slotCount file.pageSize file.schema.rowBytes)
    (free : ℓ.view txn ⟨⟨file.id, number⟩, slot⟩ = none)
    (fits : file.schema.encode values = .ok bytes) :
    ∃ id after, StoreAction.insertRow txn file.id values s = (.ok id, after) ∧
      id.page = ⟨file.id, number⟩ ∧ ℓ.Inserted txn s after id values ∧
      after.wholePages file = s.wholePages file := by
  obtain ⟨id, after, run, own, disk⟩ :=
    served.insertRow_room registered full inside within free fits
  have tables := sameTables_insertRow served.orderly.pool run
  have bounded := served.bounded.congr tables.catalog disk
  exact ⟨id, after, run, own, served.lone.inserted run bounded, (views_congr disk file).1⟩

/-- **An insert into a full table**, in the store and in the ledger. -/
theorem Served.insert_packed (served : ℓ.Served s txn) {file : TableFile} {values : List Value}
    {bytes : List UInt8} (registered : s.catalog.file file.id = .ok file)
    (packed : ℓ.Packed s txn file) (fits : file.schema.encode values = .ok bytes)
    (room : s.wholePages file + 1 < PageFile.pageLimit) :
    ∃ id after, StoreAction.insertRow txn file.id values s = (.ok id, after) ∧
      id.page = ⟨file.id, s.wholePages file⟩ ∧ ℓ.Inserted txn s after id values ∧
      after.wholePages file = s.wholePages file + 1 := by
  obtain ⟨id, after, run, own, disk⟩ := served.insertRow_packed registered packed fits room
  rw [served.bounded.pageCount_eq registered] at own
  have tables := sameTables_insertRow served.orderly.pool run
  have known := served.orderly.tables
  have bounded := (bounded_grown known registered served.bounded room).congr tables.catalog disk
  refine ⟨id, after, run, own, served.lone.inserted run bounded, ?_⟩
  rw [(views_congr disk file).1, wholePages_grown known registered served.bounded registered,
    if_pos rfl]

/-! ## Committing -/

/-- In a store in order only a holder of an exclusive lock has unwritten changes. -/
theorem clean_of_unmarked (ok : s.Orderly)
    (locks : ∀ page, LockTable.others (s.locks.holders page) txn = [])
    (unmarked : ∀ id frame, s.pool.resident? id = some frame → frame.page.mark ≠ some txn)
    {id : PageId} {frame : Frame} (there : s.pool.resident? id = some frame) :
    frame.page.mark = none := by
  cases marked : frame.page.mark with
  | none => rfl
  | some owner =>
      have apart : owner ≠ txn := fun own => unmarked id frame there (own ▸ marked)
      have held := s.locks.mem_of_heldMode owner (ok.owned id frame owner there marked)
      have foreign := LockTable.mem_others.2 ⟨held, apart⟩
      rw [locks] at foreign
      cases foreign

/-- The transaction has committed, and all is calm. -/
structure Committed (ℓ : Ledger) (txn : TxnId) (s after : Store) : Prop where
  calm : (ℓ.finish txn true).Calm after
  tables : s.SameTables after
  capacity : after.pool.capacity = s.pool.capacity
  pages : ∀ table file, s.catalog.file table = .ok file →
    after.wholePages file = s.wholePages file

/-- **The commit** of a lone transaction succeeds.  No file gets longer. -/
theorem Lone.commit (lone : ℓ.Lone s txn) :
    ∃ after, StoreAction.complete txn true s = (.ok (), after) ∧ ℓ.Committed txn s after := by
  obtain ⟨ok, agrees, bounded, locks⟩ := lone
  have tables := sameTables_complete s txn true
  obtain ⟨mid, ended, flushes, unmarked⟩ := StoreAction.complete_commit txn ok
  rw [ended] at tables
  have ordered := ok.flushes flushes
  have alone : ∀ page, LockTable.others (mid.locks.holders page) txn = [] := by
    intro page
    rw [locks_flushes flushes, locks]
  have counted := (agrees.bounded_flushes ok flushes bounded).congr rfl rfl
  have capacity : mid.pool.capacity = s.pool.capacity := capacity_flushes flushes
  refine ⟨_, ended, ⟨ordered.releaseAll unmarked, (agrees.commit ok flushes unmarked).withLocks _,
    ⟨fun page => ?_, fun id frame there => clean_of_unmarked ordered alone unmarked there⟩,
    counted⟩, tables, capacity,
    fun _ _ registered => agrees.wholePages_flushes ok flushes registered⟩
  rw [LockTable.holders_releaseAll, alone]

end Ledger

/-! ## Before the first transaction -/

theorem Store.Blank.calm (blank : s.Blank) : Ledger.empty.Calm s := by
  refine ⟨blank.orderly, blank.agrees, ⟨blank.locks, fun id frame there => ?_⟩,
    fun table file registered => ?_⟩
  · rw [blank.absent] at there
    cases there
  · rw [blank.wholePages registered]
    decide

end RowStore
