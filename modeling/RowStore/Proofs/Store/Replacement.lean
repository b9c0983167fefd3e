/-
# RowStore.Proofs.Store.Replacement -- what a refused replacement of a table leaves behind

The creation of a table is refused for one of three reasons, which are looked at in this
order: the table that it would replace has unwritten changes, its file cannot be reached, a
page has no room for a row.  The file is made empty between the second and the third.  So
the first two refusals change nothing; the third leaves an empty file behind, of which
neither the catalog nor the pool has heard (`createTable_eq_error_iff`).

That file may have held committed rows, and pages of it may still be resident
(`row_lost_to_refusal`).
-/
import RowStore.Proofs.Store.Listing
import RowStore.Proofs.Store.Mirror

namespace RowStore

set_option autoImplicit false

open StoreAction

namespace Store

variable {s after : Store} {name path : String} {schema : Schema}

theorem busyTable?_eq_some_iff {id : TableId} :
    s.busyTable? name = some id ↔ s.catalog.idOf name = .ok id ∧ s.pool.hasDirty id = true := by
  rw [busyTable?, Option.filter_eq_some_iff]
  cases s.catalog.idOf name <;> simp [Except.toOption]

theorem busyTable?_eq_none_iff :
    s.busyTable? name = none ↔
      ∀ id, s.catalog.idOf name = .ok id → s.pool.hasDirty id = false := by
  rw [busyTable?, Option.filter_eq_none_iff]
  cases s.catalog.idOf name <;> simp [Except.toOption]

theorem at?_eq_error_iff {pageSize : Nat} {fault : Fault} :
    TableFile.at? path schema pageSize = .error fault ↔
      (schema.rowBytes = 0 ∨ slotCount pageSize schema.rowBytes = 0) ∧
        fault = .badShape (.rowWiderThanPages schema.rowBytes pageSize) := by
  unfold TableFile.at?
  simp only
  split
  · rename_i narrow
    rw [and_iff_right narrow, Except.error.injEq, eq_comm]
  · rename_i room
    constructor
    · intro made
      cases made
    · rintro ⟨narrow, -⟩
      exact absurd narrow room

/-- A table whose pages have no room for a row of the schema is not made, but its file is made
empty. -/
theorem createTable_narrow
    (clean : ∀ id, s.catalog.idOf name = .ok id → s.pool.hasDirty id = false)
    (located : s.disk.locate (s.settings.tablePath name) = .ok path)
    (narrow : slotCount s.settings.pageSize schema.rowBytes = 0) :
    ∃ stop, createTable name schema s = (.error stop, s.cleared path) := by
  have unfit : TableFile.at? path schema s.settings.pageSize = .error _ :=
    at?_eq_error_iff.2 ⟨Or.inr narrow, rfl⟩
  have refused := createTable_apply name schema s
  simp only [busyTable?_eq_none_iff.2 clean, located, unfit] at refused
  exact ⟨_, refused⟩

/-- **Refused replacements.**  A table with unwritten changes is not replaced, nor one whose
file cannot be reached, and then nothing has changed.  Nor is one replaced by rows for which
a page has no room: then its file has become empty, and nothing else has changed. -/
theorem createTable_eq_error_iff {stop : Stop} :
    createTable name schema s = (.error stop, after) ↔
      (∃ id, (s.catalog.idOf name = .ok id ∧ s.pool.hasDirty id = true) ∧
        stop = .fault (.tableBusy id) ∧ after = s) ∨
      (∀ id, s.catalog.idOf name = .ok id → s.pool.hasDirty id = false) ∧
        ((∃ fault, s.disk.locate (s.settings.tablePath name) = .error fault ∧
            stop = .fault (.file fault) ∧ after = s) ∨
          ∃ path, s.disk.locate (s.settings.tablePath name) = .ok path ∧
            (schema.rowBytes = 0 ∨ slotCount s.settings.pageSize schema.rowBytes = 0) ∧
              stop = .fault (.badShape (.rowWiderThanPages schema.rowBytes s.settings.pageSize)) ∧
                after = s.cleared path) := by
  simp only [← busyTable?_eq_some_iff, ← busyTable?_eq_none_iff]
  rw [createTable_apply]
  cases busy : s.busyTable? name with
  | some id =>
      constructor
      · intro run
        cases run
        exact Or.inl ⟨id, rfl, rfl, rfl⟩
      · rintro (⟨_, same, rfl, rfl⟩ | ⟨idle, -⟩)
        · cases same
          rfl
        · cases idle
  | none =>
      simp only [reduceCtorEq, false_and, exists_false, false_or, true_and]
      cases s.disk.locate (s.settings.tablePath name) with
      | error fault =>
          constructor
          · intro run
            cases run
            exact Or.inl ⟨fault, rfl, rfl, rfl⟩
          · rintro (⟨_, same, rfl, rfl⟩ | ⟨_, reached, -⟩)
            · cases same
              rfl
            · cases reached
      | ok path =>
          have unfit := @at?_eq_error_iff path schema s.settings.pageSize
          constructor
          · intro run
            cases made : TableFile.at? path schema s.settings.pageSize <;>
              simp only [made] at run <;> cases run
            obtain ⟨narrow, rfl⟩ := unfit.1 made
            exact Or.inr ⟨path, rfl, narrow, rfl, rfl⟩
          · rintro (⟨_, lost, -⟩ | ⟨_, same, narrow, rfl, rfl⟩)
            · cases lost
            · cases same
              simp only [unfit.2 ⟨narrow, rfl⟩]

/-! ## A table of flags that is to become one of names -/

def names : Schema := ⟨[⟨"name", .varchar⟩]⟩

/-- **A row lost to a refusal.**  A row was committed and is in the file of its table.  The
table is not replaced, and the row is in the file no more, while the table is registered as
before and the page of the row is still resident. -/
theorem row_lost_to_refusal : flagged.Reachable ∧
    flagged.decodeFile .flags = .ok [⟨some ⟨⟨TableFile.flags.id, 0⟩, 0⟩, [.bool true]⟩] ∧
    ∃ stop after, createTable "flags" names flagged = (.error stop, after) ∧
      after.decodeFile .flags = .ok [] ∧ after.catalog = flagged.catalog ∧
        after.pool.isResident ⟨TableFile.flags.id, 0⟩ = true := by
  have known : flagged.catalog.idOf "flags" = .ok TableFile.flags.id := by cbv
  have clean : flagged.pool.hasDirty TableFile.flags.id = false := by cbv
  have idle : flagged.busyTable? "flags" = none := by
    rw [busyTable?_eq_none_iff, known]
    rintro id ⟨⟩
    exact clean
  have path : flagged.settings.tablePath "flags" = "flags.dat" := by cbv
  have narrow : slotCount flagged.settings.pageSize names.rowBytes = 0 := by cbv
  have unfit : TableFile.at? "/flags.dat" names flagged.settings.pageSize = .error _ :=
    at?_eq_error_iff.2 ⟨Or.inr narrow, rfl⟩
  have refused := createTable_apply "flags" names flagged
  simp only [idle, path, locate_flags, unfit] at refused
  refine ⟨reachable_flagged, by cbv, _, _, refused, ?_⟩
  exact ⟨by cbv, rfl, by cbv⟩

/-! ## Opening -/

/-- Opening a table, in contrast, looks whether the file is there before it makes one: what
files hold stays, whether the table is opened or refused. -/
theorem read?_openTable {content : FileContent} (there : s.disk.read? path = some content) :
    (openTable name schema s).2.disk.read? path = some content := by
  rcases run : openTable name schema s with ⟨answer, after⟩
  obtain ⟨start, origin, ending⟩ := openTable_spec run
  have kept : start.disk.read? path = some content := by
    rcases origin with rfl | ⟨other, missing, rfl⟩
    · exact there
    · have apart : path ≠ other := by
        rintro rfl
        rw [there] at missing
        cases missing
      rw [cleared, Disk.write, Disk.read?, FinMap.get?_insert, if_neg apart]
      exact there
  rcases ending with rfl | ⟨_, _, -, rfl⟩
  · exact kept
  · exact kept

end Store

end RowStore
