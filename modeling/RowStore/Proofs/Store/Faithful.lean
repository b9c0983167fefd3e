/-
# RowStore.Proofs.Store.Faithful -- tables that nobody changes

A page of a table is what its file holds, or else the version of it that is not written yet
(`pageAt`).  In a faithful store every other resident page is as its file has it, so a page
that is read is the page of the table, whether it was resident or not (`pageAt_of_readPage`).
Reads keep the tables as they are and the store faithful (`Still.readPage`), and every store
is faithful in which no file was emptied behind the back of the pool (`Reachable.faithful`).
-/
import RowStore.Proofs.Store.Pinned
import RowStore.Proofs.Store.Steady

namespace RowStore

set_option autoImplicit false

namespace Store

variable {files : TableId → Option TableFile} {s mid after : Store} {txn : TxnId}

/-! ## Pages and rows of a table -/

/-- The version of a page that is not written yet. -/
def unwritten (s : Store) (id : PageId) : Option Page :=
  ((s.pool.resident? id).map Frame.page).filter Page.isDirty

/-- A page as the table has it. -/
def pageAt (s : Store) (file : TableFile) (number : Nat) : Except Fault Page :=
  match s.unwritten ⟨file.id, number⟩ with
  | some page => .ok page
  | none => s.readFromDisk file ⟨file.id, number⟩

/-- The rows on a page of the table, unless they cannot be read. -/
def rowsAt (s : Store) (file : TableFile) (number : Nat) : Option (List Row) :=
  match s.pageAt file number with
  | .ok page => page.rows.toOption
  | .error _ => none

/-- The rows on these pages, if all of them can be read. -/
def rowsOn (s : Store) (file : TableFile) : List Nat → Option (List Row)
  | [] => some []
  | number :: rest => do
      let front ← s.rowsAt file number
      let back ← s.rowsOn file rest
      return front ++ back

/-! ## Faithful stores -/

/-- What is resident and needs no writing is as the files have it. -/
structure Faithful (files : TableId → Option TableFile) (s : Store) : Prop
    extends s.Steady files where
  clean : ∀ id frame file, s.pool.resident? id = some frame → frame.page.isDirty = false →
    files id.table = some file → id.number < s.pageCount file →
      s.readFromDisk file id = .ok frame.page

/-- Nothing of the tables changes: the files, the catalog and the unwritten changes are as
before, and the store is faithful. -/
structure Still (files : TableId → Option TableFile) (s after : Store) : Prop where
  settings : after.settings = s.settings
  disk : after.disk = s.disk
  catalog : after.catalog = s.catalog
  changes : ∀ id, after.unwritten id = s.unwritten id
  faithful : after.Faithful files

theorem Still.refl (faithful : s.Faithful files) : s.Still files s :=
  ⟨rfl, rfl, rfl, fun _ => rfl, faithful⟩

theorem Still.trans (first : s.Still files mid) (second : mid.Still files after) :
    s.Still files after :=
  ⟨second.settings.trans first.settings, second.disk.trans first.disk,
    second.catalog.trans first.catalog, fun id => (second.changes id).trans (first.changes id),
    second.faithful⟩

theorem Still.pageCount (still : s.Still files after) (file : TableFile) :
    after.pageCount file = s.pageCount file := (views_congr still.disk file).2.1

theorem Still.pageAt (still : s.Still files after) (file : TableFile) (number : Nat) :
    after.pageAt file number = s.pageAt file number := by
  unfold Store.pageAt
  rw [still.changes, (views_congr still.disk file).2.2]

theorem Still.rowsOn (still : s.Still files after) (file : TableFile) (pages : List Nat) :
    after.rowsOn file pages = s.rowsOn file pages := by
  induction pages with
  | nil => rfl
  | cons number rest ih =>
      rw [Store.rowsOn, Store.rowsOn, ih, rowsAt, rowsAt, still.pageAt]

/-! ## Reading -/

theorem Turnover.unwritten {pool : Pool} {id : PageId} (turn : s.Turnover txn pool id) :
    Store.unwritten { s with pool } id = s.unwritten id := by
  unfold Store.unwritten
  cases turn with
  | stays same => rw [same]
  | dropped gone there clean =>
      rw [gone, there]
      simp [Option.filter, clean]
  | @loaded frame file absent holds registered read there =>
      have clean : frame.page.isDirty = false := by
        rw [(readFromDisk_eq_ok_iff.1 read).2.2.1]
        rfl
      rw [there, absent]
      simp [Option.filter, clean]

theorem Faithful.turn (faithful : s.Faithful files) {pool : Pool}
    (steady : Steady files { s with pool }) (each : ∀ id, s.Turnover txn pool id) :
    Faithful files { s with pool } := by
  refine ⟨steady, fun id frame file there clean listed inside => ?_⟩
  have disk : ({ s with pool } : Store).disk = s.disk := rfl
  obtain ⟨-, counted, image⟩ := views_congr disk file
  rw [image]
  rw [counted] at inside
  rcases each id with same | ⟨gone, -, -⟩ | ⟨-, -, registered, read, now⟩
  · exact faithful.clean id frame file (same ▸ there) clean listed inside
  · simp only [gone] at there
    cases there
  · simp only [now] at there
    cases there
    have known := faithful.fits _ _ registered
    rw [listed] at known
    cases known
    exact read

/-- **A read changes nothing of the tables.** -/
theorem Still.readPage (faithful : s.Faithful files) {id : PageId} {mode : LockMode}
    {answer : Except Stop Frame} (run : StoreAction.readPage txn id mode s = (answer, after)) :
    s.Still files after := by
  have steady := faithful.readPage txn id mode
  rw [run] at steady
  obtain ⟨locks, pool, rfl, each⟩ := StoreAction.readPage_turns faithful.pool run
  have locked : Faithful files { s with locks } :=
    ⟨faithful.congr rfl rfl rfl, faithful.clean⟩
  exact ⟨rfl, rfl, rfl, fun id => (each id).unwritten, locked.turn steady each⟩

/-- **A page that is read is the page of the table.** -/
theorem pageAt_of_readPage (faithful : s.Faithful files) {file : TableFile} {number : Nat}
    {mode : LockMode} {frame : Frame} (listed : files file.id = some file)
    (inside : number < s.pageCount file)
    (run : StoreAction.readPage txn ⟨file.id, number⟩ mode s = (.ok frame, after)) :
    s.pageAt file number = .ok frame.page := by
  have still := Still.readPage faithful run
  have there := ((StoreAction.readPage_spec faithful.pool run).2 frame rfl).1
  rw [← still.pageCount] at inside
  rw [← still.pageAt]
  unfold Store.pageAt unwritten
  rw [there]
  cases dirty : frame.page.isDirty with
  | true => simp [Option.filter, dirty]
  | false =>
      simp only [Option.map_some, Option.filter, dirty]
      exact still.faithful.clean _ frame file there dirty listed inside

/-! ## Stores that are faithful -/

theorem Mirrored.faithful (mirrored : s.Mirrored)
    (largest : s.settings.pageSize ≤ Settings.largestPage)
    (known : ∀ table file, s.catalog.file table = .ok file ↔ files table = some file) :
    s.Faithful files := by
  refine ⟨⟨largest, mirrored.tables, fun table file => (known table file).1, mirrored.pool, ?_⟩, ?_⟩
  · intro id frame there
    obtain ⟨file, registered, schema, -⟩ := mirrored.belongs id frame there
    exact ⟨file, (known _ _).1 registered, schema⟩
  · intro id frame file there clean listed inside
    have registered := (known _ _).2 listed
    obtain ⟨held, same, schema, -, sound⟩ := mirrored.belongs id frame there
    rw [registered] at same
    cases same
    have unmarked : frame.page.mark = none := by simpa [Page.isDirty] using clean
    have counts : ¬ s.Wrapped file := by
      rintro ⟨zero, -⟩
      omega
    have image := (mirrored.matched id frame file there registered).clean counts unmarked
    have named := (mirrored.pool.resident?_id there).2
    refine readFromDisk_eq_ok_iff.2 ⟨(mirrored.tables _ _ registered).1.symm, inside, ?_, sound⟩
    rw [← image, ← schema, ← named, ← unmarked]

theorem Effect.settings (effect : Effect txn s after) : after.settings = s.settings := by
  cases effect with
  | move move => cases move <;> rfl
  | edit there held schema size sound replaces =>
      obtain ⟨pool, rfl⟩ := replaces.store
      rfl
  | flush flush =>
      cases flush
      rfl
  | drop => rfl
  | release => rfl

/-- **Reachable stores are faithful**: tables are created before there is anything to read. -/
theorem Reachable.faithful (reachable : s.Reachable)
    (known : ∀ table file, s.catalog.file table = .ok file ↔ files table = some file) :
    s.Faithful files := by
  have largest : s.settings.pageSize ≤ Settings.largestPage := by
    refine (reachable.induct (fun s prepared => prepared.untouched.settings) ?_ ?_).2
    · intro txn s after _ effect largest
      rw [effect.settings]
      exact largest
    · exact fun s pool _ _ largest => largest
  exact reachable.mirrored.faithful largest known

end Store

end RowStore
