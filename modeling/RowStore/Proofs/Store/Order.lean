/-
# RowStore.Proofs.Store.Order -- the store in order

`Orderly` is what holds of a store however far a run has come: the registered files
are proper, the locks on each page stand side by side, the pool is consistent, every
resident page is a sound page of its table, and a page with unwritten changes of a
transaction is held by it exclusively.  Nothing here reads a file, so it holds for
files of any length.

The moves of a transaction, its edits and the three parts of its completion (writing a
page back, dropping its pages, releasing its locks) each keep a store in order.
-/
import RowStore.Proofs.Store.Moves

namespace RowStore

set_option autoImplicit false

open Relation

namespace Store

structure Orderly (s : Store) : Prop where
  tables : s.catalog.Proper
  locks : ∀ page, LockTable.SideBySide (s.locks.holders page)
  pool : s.pool.Consistent
  belongs : ∀ id frame, s.pool.resident? id = some frame → ∃ file,
    s.catalog.file id.table = .ok file ∧ frame.page.schema = file.schema ∧
      frame.page.image.size = file.pageSize ∧ frame.page.Sound
  owned : ∀ id frame txn, s.pool.resident? id = some frame → frame.page.mark = some txn →
    s.locks.heldMode txn id = some .exclusive

variable {txn : TxnId} {s after : Store}

/-! ## Moves and edits -/

/-- The order does not look into the files. -/
theorem Orderly.grow (ok : s.Orderly) (file : TableFile) : (s.grown file).Orderly :=
  ⟨ok.tables, ok.locks, ok.pool, ok.belongs, ok.owned⟩

theorem Orderly.move (ok : s.Orderly) (move : Move txn s after) : after.Orderly := by
  cases move with
  | request r =>
      refine ⟨ok.tables, LockTable.sideBySide_request ok.locks txn r, ok.pool, ok.belongs, ?_⟩
      intro id frame owner there marked
      exact LockTable.heldMode_request_exclusive (ok.owned id frame owner there marked)
  | @grow _ file => exact ok.grow file
  | @turn pool consistent _ each =>
      refine ⟨ok.tables, ok.locks, consistent, ?_, ?_⟩
      · intro id frame there
        rcases each id with same | ⟨gone, -, -⟩ | ⟨-, -, registered, read, now⟩
        · exact ok.belongs id frame (same ▸ there)
        · simp only [gone] at there
          cases there
        · simp only [now] at there
          cases there
          obtain ⟨-, -, same, sound⟩ := readFromDisk_eq_ok_iff.1 read
          exact ⟨_, registered, by rw [same], by rw [same]; exact size_imageAt _ _ _, sound⟩
      · intro id frame owner there marked
        rcases each id with same | ⟨gone, -, -⟩ | ⟨-, -, registered, read, now⟩
        · exact ok.owned id frame owner (same ▸ there) marked
        · simp only [gone] at there
          cases there
        · simp only [now] at there
          cases there
          rw [(readFromDisk_eq_ok_iff.1 read).2.2.1] at marked
          cases marked

theorem Orderly.walks (ok : s.Orderly) (walk : s.Walks txn after) : after.Orderly := by
  induction walk with
  | refl => exact ok
  | tail _ move ih => exact ih.move move

/-- A page may be exchanged for a sound one of its shape if its transaction has the page
to itself or the new version is clean. -/
theorem Orderly.replaces (ok : s.Orderly) {frame : Frame} {page : Page}
    (there : s.pool.resident? frame.id = some frame)
    (replaces : s.Replaces after { frame with page }) (schema : page.schema = frame.page.schema)
    (size : page.image.size = frame.page.image.size) (sound : page.Sound)
    (owned : ∀ owner, page.mark = some owner → s.locks.heldMode owner frame.id = some .exclusive) :
    after.Orderly := by
  obtain ⟨pool, rfl⟩ := replaces.store
  refine ⟨ok.tables, ok.locks, replaces.consistent, fun id held found => ?_,
    fun id held owner found marked => ?_⟩
  · rcases replaces.resident_cases found with ⟨rfl, rfl⟩ | ⟨-, before⟩
    · obtain ⟨file, registered, first, second, -⟩ := ok.belongs frame.id frame there
      exact ⟨file, registered, schema.trans first, size.trans second, sound⟩
    · exact ok.belongs id held before
  · rcases replaces.resident_cases found with ⟨rfl, rfl⟩ | ⟨-, before⟩
    · exact owned owner marked
    · exact ok.owned id held owner before marked

theorem Orderly.edits (ok : s.Orderly) {frame : Frame} {page : Page}
    (edits : Edits txn s after frame (page.withMark (some txn)))
    (shape : frame.page.Sound → page.schema = frame.page.schema ∧
      page.image.size = frame.page.image.size ∧ page.Sound) : after.Orderly := by
  obtain ⟨mid, walk, there, held, replaces⟩ := edits
  have before := ok.walks walk
  obtain ⟨file, -, -, -, sound⟩ := before.belongs frame.id frame there
  obtain ⟨schema, size, still⟩ := shape sound
  refine before.replaces there replaces schema size (still.withMark _) fun owner marked => ?_
  cases marked
  exact held

/-- The page that is exchanged is known by the id of its frame. -/
theorem Orderly.page_of_edits (ok : s.Orderly) {frame : Frame} {page : Page}
    (edits : Edits txn s after frame page) : frame.page.id = frame.id ∧ frame.page.Sound := by
  obtain ⟨mid, walk, there, -, -⟩ := edits
  have before := ok.walks walk
  obtain ⟨-, -, -, -, sound⟩ := before.belongs frame.id frame there
  exact ⟨(before.pool.resident?_id there).2, sound⟩

/-! ## Completion -/

/-- The store after a resident page was written to its file. -/
def flushed (s : Store) (file : TableFile) (index : Nat) (frame : Frame) : Store :=
  { s.putImage file frame.id.number frame.page.image with
    pool := s.pool.setPage index (frame.page.withMark none) }

/-- Write one page that the transaction changed. -/
inductive Flush (txn : TxnId) : Store → Store → Prop where
  | page {s : Store} {index : Nat} {frame : Frame} {file : TableFile}
      (occupied : s.pool.frame? index = some frame) (marked : frame.page.mark = some txn)
      (registered : s.catalog.file frame.id.table = .ok file) :
      Flush txn s (s.flushed file index frame)

/-- What a flush does to the resident pages. -/
theorem residents_flushed (file : TableFile) (ok : s.pool.Consistent) {index : Nat}
    {frame : Frame} (occupied : s.pool.frame? index = some frame) :
    (s.flushed file index frame).pool.Consistent ∧
      ∀ id, (s.flushed file index frame).pool.resident? id =
        if id = frame.id then some { frame with page := frame.page.withMark none }
        else s.pool.resident? id :=
  ok.setPage occupied (ok.named index frame occupied)

/-- The page in a frame of the transaction has been written to its place: this is all that
changed. -/
structure Written (txn : TxnId) (s after : Store) (frame : Frame) (file : TableFile) : Prop where
  there : s.pool.resident? frame.id = some frame
  marked : frame.page.mark = some txn
  registered : s.catalog.file frame.id.table = .ok file
  own : frame.id.table = file.id
  loads : frame.page.withMark none = ⟨frame.id, file.schema, frame.page.image, none⟩
  sound : frame.page.Sound
  catalog : after.catalog = s.catalog
  lengths : ∀ table held, s.catalog.file table = .ok held →
    after.wholePages held = s.wholePages held
  images : ∀ id : PageId, ∀ held, s.catalog.file id.table = .ok held →
    after.imageAt held id.number = if id = frame.id then frame.page.image else
      s.imageAt held id.number
  residents : ∀ id, after.pool.resident? id =
    if id = frame.id then some { frame with page := frame.page.withMark none }
    else s.pool.resident? id

theorem written_of_flush (ok : s.Orderly) (flush : Flush txn s after)
    (within : ∀ id frame file, s.pool.resident? id = some frame →
      s.catalog.file id.table = .ok file → id.number < s.wholePages file) :
    ∃ frame file, Written txn s after frame file := by
  obtain ⟨occupied, marked, registered⟩ := flush
  rename_i index frame file
  have there := ok.pool.resident?_eq_some.2 ⟨index, occupied, rfl⟩
  obtain ⟨-, residents⟩ := residents_flushed file ok.pool occupied
  obtain ⟨held, listed, schema, size, sound⟩ := ok.belongs frame.id frame there
  have same : held = file := Except.ok.inj (listed.symm.trans registered)
  subst same
  have named := (ok.pool.resident?_id there).2
  have inside := within frame.id frame held there registered
  exact ⟨frame, held, there, marked, registered, (ok.tables _ held registered).1.symm,
    by rw [← schema, ← named]; rfl, sound, rfl,
    fun _ _ found => wholePages_putImage_inside ok.tables registered size inside found,
    fun _ _ found => imageAt_putImage ok.tables registered size found, residents⟩

section

variable {frame : Frame} {file : TableFile}

theorem Written.pageCount_eq (written : Written txn s after frame file) {table : TableId}
    {held : TableFile} (listed : s.catalog.file table = .ok held) :
    after.pageCount held = s.pageCount held :=
  pageCount_congr (written.lengths table held listed)

/-- A resident page is the written one or was resident before. -/
theorem Written.resident_cases (written : Written txn s after frame file) {id : PageId}
    {now : Frame} (found : after.pool.resident? id = some now) :
    id = frame.id ∧ now = { frame with page := frame.page.withMark none } ∨
      id ≠ frame.id ∧ s.pool.resident? id = some now := by
  rw [written.residents] at found
  split at found
  · rename_i here
    cases found
    exact Or.inl ⟨here, rfl⟩
  · rename_i elsewhere
    exact Or.inr ⟨elsewhere, found⟩

end

theorem Orderly.flush (ok : s.Orderly) (flush : Flush txn s after) : after.Orderly := by
  obtain ⟨occupied, -, -⟩ := flush
  rename_i index frame file
  obtain ⟨consistent, residents⟩ := residents_flushed file ok.pool occupied
  have there := ok.pool.resident?_eq_some.2 ⟨index, occupied, rfl⟩
  have exchanged : s.Replaces { s with pool := s.pool.setPage index (frame.page.withMark none) }
      { frame with page := frame.page.withMark none } := ⟨⟨_, rfl⟩, consistent, Pool.capacity_setPage _ _ _, residents⟩
  obtain ⟨held, -, -, -, sound⟩ := ok.belongs frame.id frame there
  have ordered := ok.replaces there exchanged rfl rfl (sound.withMark none)
    fun owner marked => by cases marked
  exact ⟨ordered.tables, ordered.locks, ordered.pool, ordered.belongs, ordered.owned⟩

theorem Orderly.flushes (ok : s.Orderly) (flushes : ReflTransGen (Flush txn) s after) :
    after.Orderly := by
  induction flushes with
  | refl => exact ok
  | tail _ flush ih => exact ih.flush flush

/-- Finitely many pages are written back, whoever has changed them. -/
abbrev Flushes (s after : Store) : Prop :=
  ReflTransGen (fun mid next => ∃ owner, Flush owner mid next) s after

theorem Orderly.anyFlushes (ok : s.Orderly) (flushes : s.Flushes after) : after.Orderly := by
  induction flushes with
  | refl => exact ok
  | tail _ flush ih =>
      obtain ⟨owner, written⟩ := flush
      exact ih.flush written

theorem Flush.grows (flush : Flush txn s after) : s.Grows after := by
  obtain ⟨-, -, -⟩ := flush
  rename_i index frame file
  have wrote := grows_putImage s file frame.id.number frame.page.image
  exact ⟨wrote.catalog, wrote.length⟩

theorem grows_flushes (flushes : ReflTransGen (Flush txn) s after) : s.Grows after := by
  induction flushes with
  | refl => exact .refl _
  | tail _ flush ih => exact ih.trans flush.grows

theorem locks_flushes (flushes : ReflTransGen (Flush txn) s after) : after.locks = s.locks := by
  induction flushes with
  | refl => rfl
  | tail _ flush ih =>
      cases flush
      exact ih

theorem capacity_flushes (flushes : ReflTransGen (Flush txn) s after) :
    after.pool.capacity = s.pool.capacity := by
  induction flushes with
  | refl => rfl
  | tail _ flush ih =>
      cases flush
      rw [← ih]
      exact Pool.capacity_setPage _ _ _

/-- Dropping pages needs nothing. -/
theorem Orderly.drop (ok : s.Orderly) {pool : Pool} (consistent : pool.Consistent)
    (fewer : ∀ id frame, pool.resident? id = some frame → s.pool.resident? id = some frame) :
    Orderly { s with pool } :=
  ⟨ok.tables, ok.locks, consistent, fun id frame there => ok.belongs id frame (fewer id frame there),
    fun id frame owner there => ok.owned id frame owner (fewer id frame there)⟩

/-- A transaction without unwritten changes may release all its locks. -/
theorem Orderly.releaseAll (ok : s.Orderly)
    (clean : ∀ id frame, s.pool.resident? id = some frame → frame.page.mark ≠ some txn) :
    Orderly { s with locks := (s.locks.releaseAll txn).2 } := by
  refine ⟨ok.tables, LockTable.sideBySide_releaseAll ok.locks txn, ok.pool, ok.belongs, ?_⟩
  intro id frame owner there marked
  have apart : owner ≠ txn := fun same => clean id frame there (same ▸ marked)
  show (s.locks.releaseAll txn).2.heldMode owner id = some .exclusive
  rw [LockTable.heldMode_congr_others (s.locks.others_releaseAll txn id) apart]
  exact ok.owned id frame owner there marked

/-- **Nobody reads unwritten changes of another.**  A transaction with some lock on a page
finds it unchanged, or changed by itself. -/
theorem Orderly.mark_of_holds (ok : s.Orderly) {id : PageId} {frame : Frame}
    (there : s.pool.resident? id = some frame) (holds : s.Holds txn id) :
    frame.page.mark = none ∨ frame.page.mark = some txn := by
  cases marked : frame.page.mark with
  | none => exact Or.inl rfl
  | some owner =>
      by_cases own : owner = txn
      · exact Or.inr (by rw [own])
      · obtain ⟨mode, found⟩ := holds
        have alone := LockTable.heldMode_eq_none_of_exclusive (ok.locks id)
          (ok.owned id frame owner there marked) (Ne.symm own)
        rw [found] at alone
        cases alone

theorem Orderly.owner_eq (ok : s.Orderly) {id : PageId} {frame : Frame} {owner : TxnId}
    (there : s.pool.resident? id = some frame) (holds : s.Holds txn id)
    (marked : frame.page.mark = some owner) : owner = txn := by
  rcases ok.mark_of_holds there holds with clean | own
  · rw [clean] at marked
    cases marked
  · rw [own] at marked
    cases marked
    rfl

/-- Dropping the changes of one transaction does not reach the pages that another has
locked. -/
theorem Orderly.filter_foreign (ok : s.Orderly) {id : PageId} {other : TxnId}
    (holds : s.Holds txn id) (apart : other ≠ txn) :
    (s.pool.resident? id).filter (fun frame => decide (frame.page.mark ≠ some other)) =
      s.pool.resident? id := by
  cases there : s.pool.resident? id with
  | none => rfl
  | some frame =>
      have foreign : frame.page.mark ≠ some other := fun marked =>
        apart (ok.owner_eq there holds marked)
      simp [Option.filter, foreign]

end Store

end RowStore
