/-
# RowStore.Proofs.Store.Renaming -- one file under several names

A file has many names: `t` and `./t` lead to one file, which is one table.  The catalog
knows a table by the name that it was registered under last.  While a store is in service,
by its own calls, the names it knows are in step with its files: each stands for the table
in the file that the name leads to (`InService.inStep`).

So a table with unwritten changes is not replaced under the name that the catalog knows.
Under any other name of its file it is replaced nevertheless: the file is made empty and the
changes are dropped (`InService.replace_dirty`, `changes_lost_under_other_name`).
-/
import RowStore.Proofs.Catalog.Inverse
import RowStore.Proofs.Store.Replacement
import RowStore.Proofs.Store.SameTables

namespace RowStore

set_option autoImplicit false

namespace Store

variable {txn : TxnId} {s after : Store} {name path : String} {schema : Schema} {capacity : Nat}

/-! ## Stores in service -/

/-- A store that was opened over any files and has since been used through its own calls,
whatever these answered. -/
inductive InService : Store → Prop where
  | opened {settings : Settings} {disk : Disk} {s : Store}
      (done : openOn settings disk = .ok s) : InService s
  | created {s : Store} (before : InService s) (name : String) (schema : Schema) :
      InService (StoreAction.createTable name schema s).2
  | attached {s : Store} (before : InService s) (name : String) (schema : Schema) :
      InService (StoreAction.openTable name schema s).2
  | forgotten {s : Store} (before : InService s) : InService (StoreAction.clearCatalog s).2
  | called {s : Store} (before : InService s) (txn : TxnId) (call : Call) :
      InService (s.carryOut txn call)
  /-- The disk broke a call off after some of its moves. -/
  | broken {s after : Store} {txn : TxnId} (before : InService s) (walk : s.Walks txn after) :
      InService after
  | changed {α : Type} {s : Store} (before : InService s) (txn : TxnId) (id : PageId)
      (action : PageAction α) (own : ∀ page, (action page).2.id = page.id) :
      InService (StoreAction.changePage txn id action s).2
  /-- Who was given a page may change it later, without asking for it again. -/
  | handled {s : Store} (before : InService s) (index : Nat) (page : Page)
      (own : ∀ frame, s.pool.frame? index = some frame → page.id = frame.page.id) :
      InService { s with pool := s.pool.setPage index page }
  | wroteBack {s : Store} (before : InService s) (index : Nat) :
      InService (StoreAction.writeBack index s).2
  | flushedPage {s : Store} (before : InService s) (id : PageId) :
      InService (StoreAction.flushPage id s).2
  | flushedChanges {s : Store} (before : InService s) (txn : TxnId) :
      InService (StoreAction.flushChangesOf txn s).2
  | flushed {s : Store} (before : InService s) : InService (StoreAction.flush s).2
  | discarded {s : Store} (before : InService s) (id : PageId) :
      InService (StoreAction.discardPage id s).2
  /-- Locks, transaction ids and what is in files may become anything. -/
  | beside {s after : Store} (before : InService s) (tables : s.SameTables after)
      (pool : after.pool = s.pool) : InService after

/-- A name that is known leads to the file of the table that it stands for. -/
def InStep (s : Store) : Prop :=
  ∀ name id, s.catalog.idOf name = .ok id →
    ∃ path, s.disk.locate (s.settings.tablePath name) = .ok path ∧ id = TableId.ofPath path

theorem InStep.sameTables (inStep : s.InStep) (same : s.SameTables after) : after.InStep := by
  intro name id known
  rw [same.catalog] at known
  obtain ⟨path, located, own⟩ := inStep name id known
  rw [same.settings]
  exact ⟨path, locate_of_home same.home located, own⟩

/-- A table is registered under a name that leads to its file. -/
theorem InStep.registered (inStep : s.InStep) {file : TableFile}
    (located : s.disk.locate (s.settings.tablePath name) = .ok path)
    (made : TableFile.at? path schema s.settings.pageSize = .ok file) :
    (s.registered name file).InStep := by
  intro other id known
  have listed : (s.catalog.add name file).names.get? other = some id :=
    Catalog.idOf_eq_ok_iff.1 known
  rw [Catalog.names_add] at listed
  split at listed
  · rename_i here
    cases listed
    exact ⟨path, here ▸ located, id_of_at? made⟩
  · split at listed
    · cases listed
    · exact inStep other id (Catalog.idOf_eq_ok_iff.2 listed)

theorem InStep.createTable (inStep : s.InStep) (name : String) (schema : Schema) :
    (StoreAction.createTable name schema s).2.InStep := by
  rw [createTable_apply]
  split
  · exact inStep
  · split
    · exact inStep
    · rename_i path located
      have emptied : (s.cleared path).InStep := inStep.sameTables ⟨rfl, rfl, rfl⟩
      split
      · exact emptied
      · rename_i file made
        have dropped : ((s.cleared path).withoutPagesOf file.id).InStep :=
          emptied.sameTables ⟨rfl, rfl, rfl⟩
        have home : ((s.cleared path).withoutPagesOf file.id).disk.home = s.disk.home := rfl
        exact dropped.registered (locate_of_home home located) made

theorem InStep.openTable (inStep : s.InStep) (name : String) (schema : Schema) :
    (StoreAction.openTable name schema s).2.InStep := by
  rw [openTable_apply]
  split
  · exact inStep
  · split
    · exact inStep
    · rename_i path located
      have begun : s.SameTables (if (s.disk.read? path).isNone then s.cleared path else s) := by
        split
        · exact ⟨rfl, rfl, rfl⟩
        · exact .refl s
      simp only
      split
      · exact inStep.sameTables begun
      · rename_i file made
        rw [← begun.settings] at located made
        exact (inStep.sameTables begun).registered (locate_of_home begun.home located) made

/-- In a store in service the books of the pool are in order, and names and files are in
step. -/
theorem InService.kept (service : s.InService) :
    ∃ capacity, s.Intact capacity ∧ s.InStep := by
  induction service with
  | opened done =>
      obtain ⟨-, rfl⟩ := openOn_eq_ok_iff.1 done
      refine ⟨_, ⟨Pool.consistent_new _, rfl⟩, fun name id known => ?_⟩
      cases known
  | created _ name schema ih =>
      obtain ⟨capacity, intact, inStep⟩ := ih
      exact ⟨capacity, intact.createTable name schema, inStep.createTable name schema⟩
  | attached _ name schema ih =>
      obtain ⟨capacity, intact, inStep⟩ := ih
      exact ⟨capacity, intact.openTable name schema, inStep.openTable name schema⟩
  | forgotten _ ih =>
      obtain ⟨capacity, intact, -⟩ := ih
      refine ⟨capacity, intact.congr rfl, fun name id known => ?_⟩
      cases known
  | called _ txn call ih =>
      obtain ⟨capacity, intact, inStep⟩ := ih
      exact ⟨capacity, intact.carryOut txn call,
        inStep.sameTables (sameTables_carryOut intact.pool txn call)⟩
  | broken _ walk ih =>
      obtain ⟨capacity, intact, inStep⟩ := ih
      exact ⟨capacity, intact.walks walk, inStep.sameTables (Walks.sameTables walk)⟩
  | changed _ txn id action own ih =>
      obtain ⟨capacity, intact, inStep⟩ := ih
      exact ⟨capacity, intact.changePage own,
        inStep.sameTables (sameTables_changePage intact.pool own)⟩
  | handled _ index page own ih =>
      obtain ⟨capacity, intact, inStep⟩ := ih
      exact ⟨capacity, intact.setPage own, inStep.sameTables ⟨rfl, rfl, rfl⟩⟩
  | wroteBack _ index ih =>
      obtain ⟨capacity, intact, inStep⟩ := ih
      exact ⟨capacity, (durable_intact capacity).writeBack intact index,
        inStep.sameTables (sameTables_writeBack _ index)⟩
  | flushedPage _ id ih =>
      obtain ⟨capacity, intact, inStep⟩ := ih
      exact ⟨capacity, (durable_intact capacity).flushPage (intact.lookup id),
        inStep.sameTables (sameTables_flushPage _ id)⟩
  | flushedChanges _ txn ih =>
      obtain ⟨capacity, intact, inStep⟩ := ih
      exact ⟨capacity, (durable_intact capacity).flushChangesOf intact txn,
        inStep.sameTables (sameTables_flushChangesOf _ txn)⟩
  | @flushed s _ ih =>
      obtain ⟨capacity, intact, inStep⟩ := ih
      exact ⟨capacity, (durable_intact capacity).forM_writeBack intact s.pool.occupied,
        inStep.sameTables (sameTables_forM_writeBack s.pool.occupied s)⟩
  | discarded _ id ih =>
      obtain ⟨capacity, intact, inStep⟩ := ih
      exact ⟨capacity, intact.foldl_remove [id], inStep.sameTables ⟨rfl, rfl, rfl⟩⟩
  | beside _ tables pool ih =>
      obtain ⟨capacity, intact, inStep⟩ := ih
      exact ⟨capacity, intact.congr pool, inStep.sameTables tables⟩

theorem InService.inStep (service : s.InService) : s.InStep := by
  obtain ⟨_, -, inStep⟩ := service.kept
  exact inStep

/-! ## Replacing a table that has unwritten changes -/

/-- The table in the file of a name has unwritten changes. -/
structure Pending (s : Store) (name path : String) : Prop where
  located : s.disk.locate (s.settings.tablePath name) = .ok path
  dirty : ∃ id frame, id.table = TableId.ofPath path ∧ s.pool.resident? id = some frame ∧
    frame.page.isDirty = true

theorem hasDirty_iff (ok : s.pool.Consistent) {table : TableId} :
    s.pool.hasDirty table = true ↔ ∃ id frame, id.table = table ∧
      s.pool.resident? id = some frame ∧ frame.page.isDirty = true := by
  simp only [Pool.hasDirty, List.any_eq_true, Prod.exists, Pool.mem_occupied, Bool.and_eq_true,
    decide_eq_true_eq, ok.resident?_eq_some]
  constructor
  · rintro ⟨index, frame, occupied, own, dirty⟩
    exact ⟨frame.id, frame, own, ⟨index, occupied, rfl⟩, dirty⟩
  · rintro ⟨_, frame, own, ⟨index, occupied, rfl⟩, dirty⟩
    exact ⟨index, frame, occupied, own, dirty⟩

/-- **Replacing a table with unwritten changes.**  Under the name that the catalog knows it
is refused, and nothing changes.  Under another name of the file it goes through: the file
is empty afterwards, and if the new rows fit, no page of the table is left. -/
theorem InService.replace_dirty (service : s.InService) (pending : s.Pending name path)
    (schema : Schema) :
    ((∃ id, s.catalog.idOf name = .ok id) →
      StoreAction.createTable name schema s =
        (.error (.fault (.tableBusy (TableId.ofPath path))), s)) ∧
    ((∀ id, s.catalog.idOf name ≠ .ok id) →
      ∀ answer after, StoreAction.createTable name schema s = (answer, after) →
        after.disk.read? path = some .empty ∧
          ∀ id, answer = .ok id → id = TableId.ofPath path ∧ after.catalog.idOf name = .ok id ∧
            ∀ page, page.table = id → after.pool.resident? page = none) := by
  obtain ⟨capacity, intact, inStep⟩ := service.kept
  have dirty := (hasDirty_iff intact.pool).2 pending.dirty
  constructor
  · rintro ⟨id, known⟩
    obtain ⟨reached, located, rfl⟩ := inStep name id known
    rw [pending.located] at located
    cases located
    rw [createTable_apply, busyTable?_eq_some_iff.2 ⟨known, dirty⟩]
  · intro unknown answer after run
    have idle : s.busyTable? name = none :=
      busyTable?_eq_none_iff.2 fun id known => absurd known (unknown id)
    have emptied : (s.cleared path).disk.read? path = some .empty := by
      rw [cleared, Disk.write, Disk.read?, FinMap.get?_insert, if_pos rfl]
    rw [createTable_apply, idle, pending.located] at run
    simp only at run
    split at run
    · cases run
      exact ⟨emptied, fun id same => by cases same⟩
    · rename_i file made
      cases run
      refine ⟨emptied, fun id same => ?_⟩
      cases same
      refine ⟨id_of_at? made, ?_, fun page member => ?_⟩
      · rw [Catalog.idOf_eq_ok_iff]
        show (s.catalog.add name file).names.get? name = _
        rw [Catalog.names_add, if_pos rfl]
      · obtain ⟨-, residents⟩ := intact.pool.foldl_remove
          (s.pool.residents.filter fun id => decide (id.table = file.id))
        refine (residents page).trans ?_
        cases there : s.pool.resident? page with
        | none => exact ite_self _
        | some frame =>
            have listed := intact.pool.mem_residents.2 ⟨frame, there⟩
            exact if_pos (List.mem_filter.2 ⟨listed, decide_eq_true member⟩)

/-! ## A table of flags with a committed row and one that is not -/

theorem Prepared.inService (prepared : s.Prepared) : s.InService := by
  induction prepared with
  | opened done => exact .opened done
  | created name schema _ ih => exact ih.created name schema
  | attached name schema _ ih => exact ih.attached name schema

def unsaved : Store := flagged.carryOut ⟨2⟩ (.insert TableFile.flags.id [.bool true])

theorem inService_unsaved : unsaved.InService :=
  (((Prepared.inService fresh_flags.prepared).called _ _).called _ _).called _ _

theorem dirty_unsaved : ∃ id frame, id.table = TableId.ofPath "/flags.dat" ∧
    unsaved.pool.resident? id = some frame ∧ frame.page.isDirty = true := by
  have evaluated : (unsaved.pool.resident? ⟨TableFile.flags.id, 1⟩).map
      (fun frame => frame.page.isDirty) = some true := by cbv
  obtain ⟨frame, there, dirty⟩ := Option.map_eq_some_iff.1 evaluated
  exact ⟨_, frame, rfl, there, dirty⟩

theorem replace_dirty_unsaved : unsaved.InService ∧ unsaved.Pending "flags" "/flags.dat" ∧
    StoreAction.createTable "flags" TableFile.flags.schema unsaved =
      (.error (.fault (.tableBusy TableFile.flags.id)), unsaved) := by
  have path : unsaved.settings.tablePath "flags" = "flags.dat" := by cbv
  have known : unsaved.catalog.idOf "flags" = .ok TableFile.flags.id := by cbv
  have pending : unsaved.Pending "flags" "/flags.dat" :=
    ⟨path.symm ▸ locate_flags _, dirty_unsaved⟩
  have refused := (inService_unsaved.replace_dirty pending TableFile.flags.schema).1
  exact ⟨inService_unsaved, pending, refused ⟨_, known⟩⟩

theorem locate_dotted (d : Disk) : d.locate "./flags.dat" = .ok "/flags.dat" := by
  have names : Path.names "./flags.dat" = [".", "flags.dat"] := by
    unfold Path.names String.splitOn
    rw [if_neg (by decide)]
    -- The dot is passed over, the slash ends the first name, and the rest has no slash.
    rw [String.splitOnAux, if_neg (by decide +kernel), if_neg (by decide +kernel)]
    rw [String.splitOnAux, if_neg (by decide +kernel), if_pos (by decide +kernel)]
    simp only
    rw [if_pos (by decide +kernel)]
    iterate 10 rw [String.splitOnAux]
    decide +kernel
  have entered : d.enter [] "." = .ok [] :=
    enter_eq_ok_iff.2 ⟨⟨by decide +kernel, by simp [Disk.isDirectory, Path.follow]⟩, by decide⟩
  have walked : d.walk [] [".", "flags.dat"] = .ok "/flags.dat" := by
    simp only [Disk.walk, entered]
    decide +kernel
  rw [Disk.locate, names, walked, if_neg (by decide +kernel), if_neg (by decide +kernel)]

/-- **Changes lost under another name.**  The file of the table is replaced under a name
that leads to it and that the catalog does not know.  The row that was committed and the one
that was not are gone. -/
theorem changes_lost_under_other_name : unsaved.InService ∧
    unsaved.Pending "./flags" "/flags.dat" ∧
    unsaved.decodeFile .flags = .ok [⟨some ⟨⟨TableFile.flags.id, 0⟩, 0⟩, [.bool true]⟩] ∧
    ∃ after, StoreAction.createTable "./flags" TableFile.flags.schema unsaved =
        (.ok TableFile.flags.id, after) ∧
      after.decodeFile .flags = .ok [] ∧ after.pool.residents = [] := by
  have path : unsaved.settings.tablePath "./flags" = "./flags.dat" := by cbv
  have unknown : unsaved.busyTable? "./flags" = none := by cbv
  have replaced := createTable_apply "./flags" TableFile.flags.schema unsaved
  have fits : TableFile.at? "/flags.dat" TableFile.flags.schema unsaved.settings.pageSize =
      .ok .flags := by cbv
  simp only [unknown, path, locate_dotted, fits] at replaced
  refine ⟨inService_unsaved, ⟨path.symm ▸ locate_dotted _, dirty_unsaved⟩, by cbv, _, replaced, ?_⟩
  exact ⟨by cbv, by cbv⟩

end Store

end RowStore
