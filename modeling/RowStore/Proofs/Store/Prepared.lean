/-
# RowStore.Proofs.Store.Prepared -- a store with its tables registered

A prepared store has been opened over any files, and any number of attempts were made to
create tables in it or to open the tables of files that were there, whatever these files
hold.  No transaction has reached a page yet (`Untouched`), so the store is in order.

What creating and opening a table do to a store is said once, in `createTable_spec` and
`openTable_spec`.
-/
import RowStore.Proofs.Store.Calls
import RowStore.Proofs.Store.Order
import RowStore.Store.Tables

namespace RowStore

set_option autoImplicit false

open RowStore.Action StoreAction

/-- A store over any files, after any number of attempts to create and to open tables. -/
inductive Store.Prepared : Store → Prop where
  | opened {settings : Settings} {disk : Disk} {s : Store}
      (done : Store.openOn settings disk = .ok s) : Prepared s
  | created {s : Store} (name : String) (schema : Schema) (before : Prepared s) :
      Prepared (createTable name schema s).2
  | attached {s : Store} (name : String) (schema : Schema) (before : Prepared s) :
      Prepared (openTable name schema s).2

namespace Store

/-! ## Registering a table -/

/-- A table file that was made is what its path, its schema and the page size say. -/
theorem eq_of_at? {path : String} {schema : Schema} {pageSize : Nat} {file : TableFile}
    (made : TableFile.at? path schema pageSize = .ok file) :
    file = ⟨TableId.ofPath path, path, schema, pageSize⟩ := by
  unfold TableFile.at? at made
  simp only at made
  split at made <;> cases made
  rfl

theorem proper_of_at? {path : String} {schema : Schema} {pageSize : Nat} {file : TableFile}
    (fits : pageSize ≤ Settings.largestPage) (made : TableFile.at? path schema pageSize = .ok file) :
    file.path = path ∧ file.Proper := by
  unfold TableFile.at? at made
  simp only at made
  split at made
  · cases made
  · rename_i room
    cases made
    rw [not_or] at room
    exact ⟨rfl, rfl, room.1, room.2, Nat.le_trans (slotCount_le room.1) fits⟩

theorem id_of_at? {path : String} {schema : Schema} {pageSize : Nat} {file : TableFile}
    (made : TableFile.at? path schema pageSize = .ok file) : file.id = TableId.ofPath path := by
  rw [eq_of_at? made]

/-- The store with the file at a path made empty. -/
def cleared (s : Store) (path : String) : Store :=
  { s with disk := s.disk.write path .empty }

/-- The store without the resident pages of a table. -/
def withoutPagesOf (s : Store) (table : TableId) : Store :=
  { s with
    pool := (s.pool.residents.filter fun id => decide (id.table = table)).foldl Pool.remove s.pool }

def registered (s : Store) (name : String) (file : TableFile) : Store :=
  { s with catalog := s.catalog.add name file }

variable {s after : Store} {name : String} {schema : Schema}

/-- The table of that name, if it has unwritten changes. -/
def busyTable? (s : Store) (name : String) : Option TableId :=
  (s.catalog.idOf name).toOption.filter s.pool.hasDirty

/-- **Creating a table**, step by step: the file is made empty before the schema is looked
at. -/
theorem createTable_apply (name : String) (schema : Schema) (s : Store) :
    createTable name schema s =
      match s.busyTable? name with
      | some id => (.error (.fault (.tableBusy id)), s)
      | none =>
          match s.disk.locate (s.settings.tablePath name) with
          | .error fault => (.error (.fault (.file fault)), s)
          | .ok path =>
              match TableFile.at? path schema s.settings.pageSize with
              | .error fault => (.error (.fault fault), s.cleared path)
              | .ok file =>
                  (.ok file.id,
                    ((s.cleared path).withoutPagesOf file.id).registered name file) := by
  have checked : checkIdle name s =
      (match s.busyTable? name with
        | some id => .error (.fault (.tableBusy id))
        | none => .ok (), s) := by
    rw [checkIdle, query_apply, busyTable?]
    cases s.catalog.idOf name with
    | error => rfl
    | ok id =>
        cases dirty : s.pool.hasDirty id <;>
          simp [dirty, Except.toOption, Except.mapError, Option.filter]
  unfold createTable
  rw [bind_apply, checked]
  cases s.busyTable? name with
  | some id => rfl
  | none =>
      simp only
      rw [bind_apply, locate, query_apply]
      cases s.disk.locate (s.settings.tablePath name) with
      | error fault => rfl
      | ok path =>
          have clears : clearFile path s = (.ok (), s.cleared path) := rfl
          simp only [Except.mapError]
          rw [bind_apply, clears]
          simp only
          rw [bind_apply, query_apply]
          have size : (s.cleared path).settings.pageSize = s.settings.pageSize := rfl
          rw [size]
          cases TableFile.at? path schema s.settings.pageSize <;> rfl

/-- Creating a table does nothing, or makes a file empty, or makes it empty and registers a
table on it that has no resident pages. -/
theorem createTable_spec {answer : Except Stop TableId}
    (run : createTable name schema s = (answer, after)) :
    after = s ∨ ∃ path, after = s.cleared path ∨ ∃ file,
      TableFile.at? path schema s.settings.pageSize = .ok file ∧
        after = ((s.cleared path).withoutPagesOf file.id).registered name file := by
  rw [createTable_apply] at run
  split at run
  · cases run
    exact Or.inl rfl
  · split at run
    · cases run
      exact Or.inl rfl
    · rename_i path _
      split at run <;> cases run
      · exact Or.inr ⟨path, Or.inl rfl⟩
      · rename_i file fits
        exact Or.inr ⟨path, Or.inr ⟨file, fits, rfl⟩⟩

/-- **Opening a table**, step by step: a name that is known stands for its table, whatever
is asked for, and a file is made only if there is none. -/
theorem openTable_apply (name : String) (schema : Schema) (s : Store) :
    openTable name schema s =
      match s.catalog.idOf name with
      | .ok id => (.ok id, s)
      | .error _ =>
          match s.disk.locate (s.settings.tablePath name) with
          | .error fault => (.error (.fault (.file fault)), s)
          | .ok path =>
              let start := if (s.disk.read? path).isNone then s.cleared path else s
              match TableFile.at? path schema s.settings.pageSize with
              | .error fault => (.error (.fault fault), start)
              | .ok file => (.ok file.id, start.registered name file) := by
  unfold openTable
  rw [bind_apply, get_apply]
  simp only
  cases s.catalog.idOf name with
  | ok id => rfl
  | error unknown =>
      simp only
      rw [bind_apply, locate, query_apply]
      cases s.disk.locate (s.settings.tablePath name) with
      | error fault => rfl
      | ok path =>
          have clears : clearFile path s = (.ok (), s.cleared path) := rfl
          have size : (s.cleared path).settings.pageSize = s.settings.pageSize := rfl
          simp only [Except.mapError]
          rw [bind_apply, get_apply]
          simp only
          by_cases missing : (s.disk.read? path).isNone = true
          · simp only [missing, if_true, bind_apply, clears, query_apply, size]
            cases TableFile.at? path schema s.settings.pageSize <;> rfl
          · simp only [missing, Bool.false_eq_true, if_false, bind_apply, query_apply]
            cases TableFile.at? path schema s.settings.pageSize <;> rfl

/-- Opening a table may make a file that is missing, which is empty then, and may register a
table. -/
theorem openTable_spec {answer : Except Stop TableId}
    (run : openTable name schema s = (answer, after)) :
    ∃ start, (start = s ∨ ∃ path, s.disk.read? path = none ∧ start = s.cleared path) ∧
      (after = start ∨ ∃ path file,
        TableFile.at? path schema s.settings.pageSize = .ok file ∧
          after = start.registered name file) := by
  rw [openTable_apply] at run
  split at run
  · cases run
    exact ⟨_, Or.inl rfl, Or.inl rfl⟩
  · split at run
    · cases run
      exact ⟨_, Or.inl rfl, Or.inl rfl⟩
    · rename_i path _
      refine ⟨if (s.disk.read? path).isNone then s.cleared path else s, ?_, ?_⟩
      · split
        · rename_i missing
          exact Or.inr ⟨path, Option.isNone_iff_eq_none.1 missing, rfl⟩
        · exact Or.inl rfl
      · simp only at run
        split at run
        · cases run
          exact Or.inl rfl
        · rename_i file fits
          cases run
          exact Or.inr ⟨path, file, fits, rfl⟩

/-! ## Before the first transaction -/

/-- Nothing is locked or resident, and every registered file is proper. -/
structure Untouched (s : Store) : Prop where
  settings : s.settings.pageSize ≤ Settings.largestPage
  tables : s.catalog.Proper
  pool : s.pool.Consistent
  absent : ∀ id, s.pool.resident? id = none
  locks : ∀ page, s.locks.holders page = []

/-- A store is opened with valid settings, and knows no table. -/
theorem openOn_eq_ok_iff {settings : Settings} {disk : Disk} : openOn settings disk = .ok s ↔
    settings.validate = .ok () ∧
      s = ⟨settings, disk, .empty, .empty, .new settings.poolPages, .start⟩ := by
  unfold openOn
  cases settings.validate with
  | error fault => simp
  | ok => simp [eq_comm]

theorem untouched_of_openOn {settings : Settings} {disk : Disk}
    (done : openOn settings disk = .ok s) : s.Untouched := by
  obtain ⟨valid, rfl⟩ := openOn_eq_ok_iff.1 done
  obtain ⟨⟨-, largest⟩, -⟩ := Settings.validate_eq_ok_iff.1 valid
  refine ⟨largest, fun _ _ found => ?_, Pool.consistent_new _, Pool.resident?_new _, fun _ => rfl⟩
  cases found

theorem Untouched.cleared (untouched : s.Untouched) (path : String) : (s.cleared path).Untouched :=
  ⟨untouched.settings, untouched.tables, untouched.pool, untouched.absent, untouched.locks⟩

theorem Untouched.withoutPagesOf (untouched : s.Untouched) (table : TableId) :
    (s.withoutPagesOf table).Untouched := by
  obtain ⟨consistent, residents⟩ := untouched.pool.foldl_remove
    (s.pool.residents.filter fun id => decide (id.table = table))
  refine ⟨untouched.settings, untouched.tables, consistent, fun id => ?_, untouched.locks⟩
  refine (residents id).trans ?_
  rw [untouched.absent, ite_self]

theorem Untouched.registered (untouched : s.Untouched) {path : String} {file : TableFile}
    (made : TableFile.at? path schema s.settings.pageSize = .ok file) (name : String) :
    (s.registered name file).Untouched := by
  refine ⟨untouched.settings, fun table held found => ?_, untouched.pool, untouched.absent,
    untouched.locks⟩
  rcases Catalog.file_add found with ⟨rfl, rfl⟩ | before
  · exact ⟨rfl, (proper_of_at? untouched.settings made).2⟩
  · exact untouched.tables table held before

theorem Untouched.createTable (untouched : s.Untouched) (name : String) (schema : Schema) :
    (StoreAction.createTable name schema s).2.Untouched := by
  rcases run : StoreAction.createTable name schema s with ⟨answer, after⟩
  show after.Untouched
  rcases createTable_spec run with rfl | ⟨path, rfl | ⟨file, made, rfl⟩⟩
  · exact untouched
  · exact untouched.cleared path
  · exact ((untouched.cleared path).withoutPagesOf file.id).registered made name

theorem Untouched.openTable (untouched : s.Untouched) (name : String) (schema : Schema) :
    (StoreAction.openTable name schema s).2.Untouched := by
  rcases run : StoreAction.openTable name schema s with ⟨answer, after⟩
  show after.Untouched
  obtain ⟨start, origin, ending⟩ := openTable_spec run
  have begun : start.Untouched ∧ start.settings = s.settings := by
    rcases origin with rfl | ⟨path, -, rfl⟩
    · exact ⟨untouched, rfl⟩
    · exact ⟨untouched.cleared path, rfl⟩
  rcases ending with rfl | ⟨path, file, made, rfl⟩
  · exact begun.1
  · exact begun.1.registered (begun.2.symm ▸ made) name

theorem Prepared.untouched (prepared : s.Prepared) : s.Untouched := by
  induction prepared with
  | opened done => exact untouched_of_openOn done
  | created name schema _ ih => exact ih.createTable name schema
  | attached name schema _ ih => exact ih.openTable name schema

theorem Untouched.orderly (untouched : s.Untouched) : s.Orderly := by
  refine ⟨untouched.tables, fun page => ?_, untouched.pool, fun id frame there => ?_,
    fun id frame txn there => ?_⟩
  · rw [untouched.locks]
    exact LockTable.sideBySide_nil
  · rw [untouched.absent] at there
    cases there
  · rw [untouched.absent] at there
    cases there

end Store

end RowStore
