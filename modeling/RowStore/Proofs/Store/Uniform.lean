/-
# RowStore.Proofs.Store.Uniform -- how many rows a table can have

The tables of a store have pages of the size that is set, and no page has more slots than can
be told apart.  So a page has at most `slotLimit` rows, and all pages of a table
together have less than `Store.rowBound`, which is computed from the lengths of the files
alone.  Reachable stores are of this kind (`Reachable.uniform`), and reading keeps them so.
-/
import Mathlib.Algebra.Order.BigOperators.Group.List
import RowStore.Proofs.Store.Faithful
import RowStore.Proofs.Store.Repeat
import RowStore.Step

namespace RowStore

set_option autoImplicit false

/-! ## The rows of a page -/

theorem length_of_mapM {α β ε : Type} {f : α → Except ε β} {l : List α} {bs : List β}
    (done : l.mapM f = .ok bs) : bs.length = l.length := by
  induction l generalizing bs with
  | nil =>
      cases done
      rfl
  | cons a rest ih =>
      rw [List.mapM_cons] at done
      cases first : f a with
      | error cause =>
          rw [first] at done
          cases done
      | ok b =>
          cases later : rest.mapM f with
          | error cause =>
              rw [first, later] at done
              cases done
          | ok others =>
              rw [first, later] at done
              cases done
              rw [List.length_cons, ih later, List.length_cons]

theorem Page.length_rows {page : Page} {rows : List Row} (read : page.rows = .ok rows) :
    rows.length ≤ page.slots := by
  rw [length_of_mapM read]
  exact (List.length_filter_le _ _).trans List.length_range.le

/-! ## Stores whose pages are of one size -/

namespace Store

variable {files : TableId → Option TableFile} {s after : Store} {txn : TxnId}

/-- The tables have pages of the size that is set, with no more slots than can be told apart. -/
structure Uniform (files : TableId → Option TableFile) (s : Store) : Prop
    extends s.Faithful files where
  sizes : ∀ table file, files table = some file → file.pageSize = s.settings.pageSize
  slots : ∀ table file number page, files table = some file →
    s.pageAt file number = .ok page → page.slots ≤ slotLimit

theorem Still.uniform (still : s.Still files after) (uniform : s.Uniform files) :
    after.Uniform files := by
  refine ⟨still.faithful, fun table file listed => ?_, fun table file number page listed there => ?_⟩
  · rw [still.settings]
    exact uniform.sizes table file listed
  · rw [still.pageAt] at there
    exact uniform.slots table file number page listed there

theorem Uniform.length_rowsAt (uniform : s.Uniform files) {file : TableFile} {number : Nat}
    {rows : List Row} (listed : files file.id = some file)
    (there : s.rowsAt file number = some rows) : rows.length ≤ slotLimit := by
  unfold rowsAt at there
  split at there
  · rename_i page found
    cases read : page.rows with
    | error fault =>
        rw [read] at there
        cases there
    | ok answered =>
        rw [read] at there
        cases there
        exact (Page.length_rows read).trans (uniform.slots _ file number page listed found)
  · cases there

theorem Prepared.sizes (prepared : s.Prepared) :
    ∀ table file, s.catalog.file table = .ok file → file.pageSize = s.settings.pageSize := by
  have registered : ∀ {s : Store} {path : String} {schema : Schema} {file : TableFile}
      (name : String), TableFile.at? path schema s.settings.pageSize = .ok file →
      (∀ table held, s.catalog.file table = .ok held → held.pageSize = s.settings.pageSize) →
      ∀ table held, (s.registered name file).catalog.file table = .ok held →
        held.pageSize = s.settings.pageSize := by
    intro s path schema file name made sizes table held found
    rcases Catalog.file_add found with ⟨-, rfl⟩ | before
    · rw [eq_of_at? made]
    · exact sizes table held before
  induction prepared with
  | opened done =>
      obtain ⟨-, rfl⟩ := openOn_eq_ok_iff.1 done
      intro table file found
      cases found
  | @created s name schema _ ih =>
      rcases run : StoreAction.createTable name schema s with ⟨answer, after⟩
      rcases createTable_spec run with rfl | ⟨path, rfl | ⟨file, made, rfl⟩⟩
      · exact ih
      · exact ih
      · exact registered name made ih
  | @attached s name schema _ ih =>
      rcases run : StoreAction.openTable name schema s with ⟨answer, after⟩
      obtain ⟨start, origin, ending⟩ := openTable_spec run
      obtain ⟨settings, catalog⟩ : start.settings = s.settings ∧ start.catalog = s.catalog := by
        rcases origin with rfl | ⟨path, -, rfl⟩ <;> exact ⟨rfl, rfl⟩
      rw [← settings, ← catalog] at ih
      rcases ending with rfl | ⟨path, file, made, rfl⟩
      · exact ih
      · rw [← settings] at made
        exact registered name made ih

/-- **Reachable stores are uniform.** -/
theorem Reachable.uniform (reachable : s.Reachable)
    (known : ∀ table file, s.catalog.file table = .ok file ↔ files table = some file) :
    s.Uniform files := by
  have sizes : ∀ table file, s.catalog.file table = .ok file →
      file.pageSize = s.settings.pageSize := by
    refine (reachable.induct (fun s prepared => prepared.sizes) ?_ ?_).2
    · intro txn s after _ effect sizes
      rw [effect.settings, effect.grows.catalog]
      exact sizes
    · exact fun s pool _ _ sizes => sizes
  refine ⟨reachable.faithful known, fun table file listed => sizes table file ((known _ _).2 listed),
    fun table file number page listed there => ?_⟩
  unfold pageAt at there
  split at there
  · rename_i changed
    cases there
    unfold unwritten at changed
    obtain ⟨frame, resident, rfl⟩ := Option.map_eq_some_iff.1 (Option.filter_eq_some_iff.1 changed).1
    obtain ⟨-, -, -, -, sound⟩ := reachable.orderly.belongs _ frame resident
    exact sound.addressed
  · exact (readFromDisk_eq_ok_iff.1 there).2.2.2.addressed

/-! ## More rows than there are -/

theorem Uniform.slots_lt_rowBound (uniform : s.Uniform files) {table : TableId} {file : TableFile}
    (listed : files table = some file) : slotLimit * s.pageCount file < s.rowBound := by
  have counted : s.pageCount file ≤ s.disk.files.values.foldr
      (fun content count => content.length / s.settings.pageSize + count) 0 := by
    refine (Nat.mod_le _ _).trans ?_
    show (s.disk.content file.path).length / file.pageSize ≤ _
    rw [uniform.sizes table file listed, Disk.content, Disk.read?]
    cases there : s.disk.files.get? file.path with
    | none => exact (Nat.zero_div _).le.trans (Nat.zero_le _)
    | some content =>
        have member : content ∈ s.disk.files.values :=
          List.mem_map_of_mem (f := Prod.snd) (FinMap.mem_entries.2 there)
        have summed := List.le_sum_of_mem
          (List.mem_map_of_mem (f := fun content => content.length / s.settings.pageSize) member)
        rwa [List.sum_eq_foldr, List.foldr_map] at summed
  calc slotLimit * s.pageCount file
      = s.pageCount file * slotLimit := Nat.mul_comm _ _
    _ ≤ (_ + s.pool.capacity + 1) * slotLimit :=
        Nat.mul_le_mul_right _ (counted.trans ((Nat.le_add_right _ _).trans (Nat.le_succ _)))
    _ < s.rowBound := Nat.lt_succ_self _

end Store

end RowStore
