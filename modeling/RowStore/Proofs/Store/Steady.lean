/-
# RowStore.Proofs.Store.Steady -- tables that keep their columns

Which file a table has is said once and for all by `files`, and `Steady` is what follows
for a store in which nothing was ever registered otherwise: every resident page has the
schema of its table's file, whoever has brought it in or changed it.  Tables may be
created, opened and forgotten, and between two calls the files and the locks may become
anything; only no table gets another file than the one it had (`Settled`).
-/
import RowStore.Proofs.Store.Frames

namespace RowStore

set_option autoImplicit false

open Relation RowStore.Action

namespace Store

/-- The files that the store knows are these. -/
def Fits (files : TableId → Option TableFile) (s : Store) : Prop :=
  ∀ table file, s.catalog.file table = .ok file → files table = some file

/-- Every resident page has the schema of its table. -/
structure Steady (files : TableId → Option TableFile) (s : Store) : Prop where
  settings : s.settings.pageSize ≤ Settings.largestPage
  tables : s.catalog.Proper
  fits : s.Fits files
  pool : s.pool.Consistent
  schemas : ∀ id frame, s.pool.resident? id = some frame →
    ∃ file, files id.table = some file ∧ frame.page.schema = file.schema

variable {files : TableId → Option TableFile} {txn : TxnId} {s after : Store}

/-! ## Steps -/

/-- Files, locks and the counter do not matter. -/
theorem Steady.congr (steady : s.Steady files) (settings : after.settings = s.settings)
    (catalog : after.catalog = s.catalog) (pool : after.pool = s.pool) : after.Steady files := by
  obtain ⟨largest, tables, fits, consistent, schemas⟩ := steady
  unfold Fits at fits
  rw [← settings] at largest
  rw [← catalog] at tables fits
  rw [← pool] at consistent schemas
  exact ⟨largest, tables, fits, consistent, schemas⟩

/-- A pool with the same pages or fewer, or with other pages of the same schemas. -/
theorem Steady.withPool (steady : s.Steady files) {pool : Pool} (consistent : pool.Consistent)
    (schemas : ∀ id frame, pool.resident? id = some frame →
      (∃ file, files id.table = some file ∧ frame.page.schema = file.schema) ∨
        ∃ held, s.pool.resident? id = some held ∧ frame.page.schema = held.page.schema) :
    Steady files { s with pool } := by
  refine ⟨steady.settings, steady.tables, steady.fits, consistent, fun id frame there => ?_⟩
  rcases schemas id frame there with known | ⟨held, before, same⟩
  · exact known
  · rw [same]
    exact steady.schemas id held before

theorem Steady.move (steady : s.Steady files) (move : Move txn s after) : after.Steady files := by
  cases move with
  | request r => exact steady.congr rfl rfl rfl
  | grow => exact steady.congr rfl rfl rfl
  | turn consistent _ each =>
      refine steady.withPool consistent fun id frame there => ?_
      rcases each id with same | ⟨gone, -, -⟩ | ⟨-, -, registered, read, now⟩
      · exact Or.inr ⟨frame, same ▸ there, rfl⟩
      · rw [gone] at there
        cases there
      · rw [now] at there
        cases there
        refine Or.inl ⟨_, steady.fits _ _ registered, ?_⟩
        rw [(readFromDisk_eq_ok_iff.1 read).2.2.1]

theorem Steady.walks (steady : s.Steady files) (walk : s.Walks txn after) : after.Steady files := by
  induction walk with
  | refl => exact steady
  | tail _ move ih => exact ih.move move

theorem Steady.edits (steady : s.Steady files) {frame : Frame} {page : Page}
    (edits : Edits txn s after frame page) (schema : page.schema = frame.page.schema) :
    after.Steady files := by
  obtain ⟨mid, walk, there, -, replaces⟩ := edits
  obtain ⟨pool, rfl⟩ := replaces.store
  refine (steady.walks walk).withPool replaces.consistent fun id held found => ?_
  rcases replaces.resident_cases found with ⟨rfl, rfl⟩ | ⟨-, before⟩
  · exact Or.inr ⟨frame, there, schema⟩
  · exact Or.inr ⟨held, before, rfl⟩

theorem Steady.foldl_remove (steady : s.Steady files) (pages : List PageId) :
    Steady files { s with pool := pages.foldl Pool.remove s.pool } := by
  obtain ⟨consistent, residents⟩ := steady.pool.foldl_remove pages
  refine steady.withPool consistent fun id frame there => Or.inr ⟨frame, ?_, rfl⟩
  rw [residents] at there
  split at there
  · cases there
  · exact there

theorem Steady.setPage (steady : s.Steady files) {index : Nat} {page : Page}
    (own : ∀ frame, s.pool.frame? index = some frame →
      page.id = frame.page.id ∧ page.schema = frame.page.schema) :
    Steady files { s with pool := s.pool.setPage index page } := by
  cases occupied : s.pool.frame? index with
  | none =>
      rw [Pool.setPage, occupied]
      exact steady
  | some frame =>
      obtain ⟨sameId, schema⟩ := own frame occupied
      have named := steady.pool.named index frame occupied
      obtain ⟨consistent, residents⟩ := steady.pool.setPage occupied (sameId.trans named)
      refine steady.withPool consistent fun id held there => Or.inr ?_
      rw [residents] at there
      split at there
      · rename_i here
        cases there
        exact ⟨frame, steady.pool.resident?_eq_some.2 ⟨index, occupied, here.symm⟩, schema⟩
      · exact ⟨held, there, rfl⟩

theorem Steady.lookup (steady : s.Steady files) (id : PageId) :
    Steady files { s with pool := (s.pool.lookup id).2 } := by
  refine steady.withPool (steady.pool.lookup id) fun other frame there => ?_
  rw [Pool.resident?_lookup] at there
  exact Or.inr ⟨frame, there, rfl⟩

/-! ## Calls -/

theorem durable_steady (files : TableId → Option TableFile) : Durable (Steady files) where
  beside := fun settings catalog pool steady => steady.congr settings catalog pool
  cleared := fun occupied steady => steady.setPage fun held found => by
    rw [occupied] at found
    cases found
    exact ⟨rfl, rfl⟩
  dropped := fun pages steady => steady.foldl_remove pages

theorem Steady.insertRow (steady : s.Steady files) (txn : TxnId) (table : TableId)
    (values : List Value) : (StoreAction.insertRow txn table values s).2.Steady files := by
  rcases StoreAction.insertRow_spec steady.pool rfl with
    ⟨walk, -⟩ | ⟨id, frame, stored, -, done, edits⟩
  · exact steady.walks walk
  · obtain ⟨image, rfl⟩ := Page.insert_image done
    exact steady.edits edits rfl

theorem Steady.deleteRow (steady : s.Steady files) (txn : TxnId) (row : Row) :
    (StoreAction.deleteRow txn row s).2.Steady files := by
  rcases StoreAction.deleteRow_spec steady.pool rfl with
    ⟨walk, -⟩ | ⟨id, frame, rest, -, -, done, edits⟩
  · exact steady.walks walk
  · obtain ⟨image, rfl⟩ := Page.delete_image done
    exact steady.edits edits rfl

theorem Steady.readPage (steady : s.Steady files) (txn : TxnId) (id : PageId) (mode : LockMode) :
    (StoreAction.readPage txn id mode s).2.Steady files :=
  steady.walks (StoreAction.readPage_spec steady.pool rfl).1.walk

theorem Steady.carryOut (steady : s.Steady files) (txn : TxnId) (call : Call) :
    (s.carryOut txn call).Steady files := by
  cases call with
  | insert table values => exact steady.insertRow txn table values
  | delete row => exact steady.deleteRow txn row
  | scan table => exact steady.walks (StoreAction.scan_spec steady.pool rfl).1.walk
  | read page mode => exact steady.readPage txn page mode
  | complete keep => exact (durable_steady files).complete steady txn keep

theorem Steady.changePage {α : Type} (steady : s.Steady files) {id : PageId}
    {action : PageAction α}
    (own : ∀ page, (action page).2.id = page.id ∧ (action page).2.schema = page.schema) :
    (StoreAction.changePage txn id action s).2.Steady files := by
  rcases StoreAction.changePage_spec steady.pool (fun page => (own page).1) rfl with
    ⟨reads, -⟩ | ⟨frame, -, changes, -⟩
  · exact steady.walks reads.walk
  · exact steady.edits changes.edits (own frame.page).2

/-! ## Tables -/

theorem Steady.register (steady : s.Steady files) {name : String} {path : String}
    {schema : Schema} {file : TableFile}
    (made : TableFile.at? path schema s.settings.pageSize = .ok file)
    (fits : (s.registered name file).Fits files) : (s.registered name file).Steady files := by
  refine ⟨steady.settings, fun table held found => ?_, fits, steady.pool, steady.schemas⟩
  rcases Catalog.file_add found with ⟨rfl, rfl⟩ | before
  · exact ⟨rfl, (proper_of_at? steady.settings made).2⟩
  · exact steady.tables table held before

theorem Steady.createTable (steady : s.Steady files) {name : String} {schema : Schema}
    (fits : (StoreAction.createTable name schema s).2.Fits files) :
    (StoreAction.createTable name schema s).2.Steady files := by
  rcases run : StoreAction.createTable name schema s with ⟨answer, after⟩
  rw [run] at fits
  show after.Steady files
  rcases createTable_spec run with rfl | ⟨path, rfl | ⟨file, made, rfl⟩⟩
  · exact steady
  · exact steady.congr rfl rfl rfl
  · have dropped := steady.foldl_remove
      (s.pool.residents.filter fun id => decide (id.table = file.id))
    have emptied : ((s.cleared path).withoutPagesOf file.id).Steady files :=
      dropped.congr rfl rfl rfl
    exact emptied.register made fits

theorem Steady.openTable (steady : s.Steady files) {name : String} {schema : Schema}
    (fits : (StoreAction.openTable name schema s).2.Fits files) :
    (StoreAction.openTable name schema s).2.Steady files := by
  rcases run : StoreAction.openTable name schema s with ⟨answer, after⟩
  rw [run] at fits
  show after.Steady files
  obtain ⟨start, origin, ending⟩ := openTable_spec run
  have begun : start.Steady files ∧ start.settings = s.settings := by
    rcases origin with rfl | ⟨path, -, rfl⟩
    · exact ⟨steady, rfl⟩
    · exact ⟨steady.congr rfl rfl rfl, rfl⟩
  rcases ending with rfl | ⟨path, file, made, rfl⟩
  · exact begun.1
  · exact begun.1.register (begun.2.symm ▸ made) fits

/-! ## Settled stores -/

/-- Something happens to a store, and no table gets another file than these. -/
inductive Meanwhile (files : TableId → Option TableFile) : Store → Store → Prop where
  /-- Files, locks and the counter become anything, and tables are forgotten. -/
  | beside {s after : Store} (settings : after.settings = s.settings)
      (fewer : ∀ table file, after.catalog.file table = .ok file → s.catalog.file table = .ok file)
      (pool : after.pool = s.pool) : Meanwhile files s after
  | called (s : Store) (txn : TxnId) (call : Call) : Meanwhile files s (s.carryOut txn call)
  /-- An action changes the rows or the mark of the page that it is given. -/
  | changed {α : Type} (s : Store) (txn : TxnId) (id : PageId) (action : PageAction α)
      (own : ∀ page, (action page).2.id = page.id ∧ (action page).2.schema = page.schema) :
      Meanwhile files s (StoreAction.changePage txn id action s).2
  | handled (s : Store) (index : Nat) (page : Page)
      (own : ∀ frame, s.pool.frame? index = some frame →
        page.id = frame.page.id ∧ page.schema = frame.page.schema) :
      Meanwhile files s { s with pool := s.pool.setPage index page }
  | wroteBack (s : Store) (index : Nat) : Meanwhile files s (StoreAction.writeBack index s).2
  | flushedPage (s : Store) (id : PageId) : Meanwhile files s (StoreAction.flushPage id s).2
  | flushedChanges (s : Store) (txn : TxnId) :
      Meanwhile files s (StoreAction.flushChangesOf txn s).2
  | flushed (s : Store) : Meanwhile files s (StoreAction.flush s).2
  | discarded (s : Store) (id : PageId) : Meanwhile files s (StoreAction.discardPage id s).2
  | created (s : Store) (name : String) (schema : Schema)
      (fits : (StoreAction.createTable name schema s).2.Fits files) :
      Meanwhile files s (StoreAction.createTable name schema s).2
  | attached (s : Store) (name : String) (schema : Schema)
      (fits : (StoreAction.openTable name schema s).2.Fits files) :
      Meanwhile files s (StoreAction.openTable name schema s).2

theorem Steady.meanwhile (steady : s.Steady files) (step : Meanwhile files s after) :
    after.Steady files := by
  cases step with
  | beside settings fewer pool =>
      refine ⟨settings ▸ steady.settings, fun table file found => ?_, fun table file found => ?_,
        pool ▸ steady.pool, pool ▸ steady.schemas⟩
      · exact steady.tables table file (fewer table file found)
      · exact steady.fits table file (fewer table file found)
  | called _ txn call => exact steady.carryOut txn call
  | changed _ txn id action own => exact steady.changePage own
  | handled _ index page own => exact steady.setPage own
  | wroteBack _ index => exact (durable_steady files).writeBack steady index
  | flushedPage _ id => exact (durable_steady files).flushPage (steady.lookup id)
  | flushedChanges _ txn => exact (durable_steady files).flushChangesOf steady txn
  | flushed => exact (durable_steady files).forM_writeBack steady s.pool.occupied
  | discarded _ id => exact steady.foldl_remove [id]
  | created _ name schema fits => exact steady.createTable fits
  | attached _ name schema fits => exact steady.openTable fits

/-- What can become of a store that was opened over any files. -/
inductive Settled (files : TableId → Option TableFile) : Store → Prop where
  | opened {settings : Settings} {disk : Disk} {s : Store}
      (done : Store.openOn settings disk = .ok s) : Settled files s
  | later {s after : Store} (before : Settled files s) (step : Meanwhile files s after) :
      Settled files after

theorem steady_of_openOn {settings : Settings} {disk : Disk} (done : openOn settings disk = .ok s) :
    s.Steady files := by
  obtain ⟨largest, tables, pool, absent, -⟩ := untouched_of_openOn done
  refine ⟨largest, tables, fun table file found => ?_, pool, fun id frame there => ?_⟩
  · obtain ⟨-, rfl⟩ := openOn_eq_ok_iff.1 done
    cases found
  · rw [absent] at there
    cases there

theorem Settled.steady (settled : s.Settled files) : s.Steady files := by
  induction settled with
  | opened done => exact steady_of_openOn done
  | later _ step ih => exact ih.meanwhile step

/-- A table that is not replaced stays registered as it was, though its file may be empty. -/
theorem Settled.refused (settled : s.Settled files) {name path : String} {schema : Schema}
    {stop : Stop} (refused : StoreAction.createTable name schema s = (.error stop, s.cleared path)) :
    (s.cleared path).Settled files := by
  have fits : (StoreAction.createTable name schema s).2.Fits files := by
    rw [refused]
    exact settled.steady.fits
  have after := settled.later (.created s name schema fits)
  rw [refused] at after
  exact after

/-! ## A table of flags -/

/-- No other table has a file. -/
def onlyFlags (table : TableId) : Option TableFile :=
  if table = TableFile.flags.id then some .flags else none

theorem fits_flags : flags.Fits onlyFlags := by
  intro table file registered
  rcases Catalog.file_add registered with ⟨rfl, rfl⟩ | other
  · exact if_pos rfl
  · cases other

theorem settled_flags : flags.Settled onlyFlags := by
  have done : openOn ⟨"", 2, 2⟩ (.new "") =
      .ok ⟨⟨"", 2, 2⟩, .new "", .empty, .empty, .new 2, .start⟩ := rfl
  have path : Settings.tablePath ⟨"", 2, 2⟩ "flags" = "flags.dat" := by decide +kernel
  have step := @Meanwhile.created onlyFlags
    ⟨⟨"", 2, 2⟩, .new "", .empty, .empty, .new 2, .start⟩ "flags" TableFile.flags.schema
  rw [createTable_eq rfl (path.symm ▸ locate_flags _) rfl (Pool.residents_new 2)] at step
  exact (Settled.opened done).later (step fits_flags)

end Store

end RowStore
