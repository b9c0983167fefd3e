/-
# RowStore.Proofs.Store.SameTables -- what leaves the tables alone

Calls on rows read and change what is on pages.  They leave the settings, the catalog and
the home directory as they are (`SameTables`), whatever they answer, so the names of tables
lead where they led before (`locate_of_home`).
-/
import RowStore.Proofs.Store.Frames

namespace RowStore

set_option autoImplicit false

namespace Store

variable {txn : TxnId} {s after : Store} {name path : String}

/-- The same tables are known, and a name leads to the same file. -/
structure SameTables (s after : Store) : Prop where
  settings : after.settings = s.settings
  home : after.disk.home = s.disk.home
  catalog : after.catalog = s.catalog

theorem SameTables.refl (s : Store) : s.SameTables s := ⟨rfl, rfl, rfl⟩

theorem SameTables.trans {mid : Store} (first : s.SameTables mid) (second : mid.SameTables after) :
    s.SameTables after :=
  ⟨second.settings.trans first.settings, second.home.trans first.home,
    second.catalog.trans first.catalog⟩

theorem Walks.sameTables (walk : s.Walks txn after) : s.SameTables after := by
  induction walk with
  | refl => exact .refl s
  | tail _ move ih =>
      refine ih.trans ?_
      cases move with
      | request => exact ⟨rfl, rfl, rfl⟩
      | turn => exact ⟨rfl, rfl, rfl⟩
      | grow => exact ⟨rfl, rfl, rfl⟩

theorem Edits.sameTables {frame : Frame} {page : Page} (edits : Edits txn s after frame page) :
    s.SameTables after := by
  obtain ⟨mid, walk, -, -, replaces⟩ := edits
  obtain ⟨pool, rfl⟩ := replaces.store
  exact (Walks.sameTables walk).trans ⟨rfl, rfl, rfl⟩

theorem sameTables_writeToDisk {file : TableFile} {page : Page}
    (written : s.writeToDisk file page = .ok after) : s.SameTables after := by
  unfold writeToDisk at written
  repeat' split at written
  all_goals cases written
  exact ⟨rfl, rfl, rfl⟩

theorem sameTables_writeBack (s : Store) (index : Nat) :
    s.SameTables (StoreAction.writeBack index s).2 := by
  rcases writeBack_cases s index with same | ⟨frame, file, written, -, made, same⟩
  · rw [same]
    exact .refl s
  · rw [same]
    exact (sameTables_writeToDisk made).trans ⟨rfl, rfl, rfl⟩

theorem sameTables_forM_writeBack (listed : List (Nat × Frame)) (s : Store) :
    s.SameTables ((forM listed fun e => StoreAction.writeBack e.1 : StoreAction Unit) s).2 := by
  induction listed generalizing s with
  | nil => exact .refl s
  | cons e rest ih =>
      have first := sameTables_writeBack s e.1
      rw [List.forM_cons, Action.bind_apply]
      rcases run : StoreAction.writeBack e.1 s with ⟨_ | _, mid⟩ <;> rw [run] at first
      · exact first
      · exact first.trans (ih mid)

theorem sameTables_flushChangesOf (s : Store) (txn : TxnId) :
    s.SameTables (StoreAction.flushChangesOf txn s).2 :=
  sameTables_forM_writeBack (s.pool.dirtiedBy txn) s

theorem sameTables_flushPage (s : Store) (id : PageId) :
    s.SameTables (StoreAction.flushPage id s).2 := by
  have looked : s.SameTables { s with pool := (s.pool.lookup id).2 } := ⟨rfl, rfl, rfl⟩
  unfold StoreAction.flushPage
  rw [Action.bind_apply, StoreAction.lookup_apply]
  cases s.pool.resident? id with
  | none => exact looked
  | some frame =>
      simp only
      rw [Action.bind_apply, Action.get_apply]
      simp only
      cases (s.pool.lookup id).2.directory.get? id with
      | none => exact looked
      | some index => exact looked.trans (sameTables_writeBack _ index)

theorem sameTables_complete (s : Store) (txn : TxnId) (keep : Bool) :
    s.SameTables (StoreAction.complete txn keep s).2 := by
  cases keep with
  | true =>
      have flushed := sameTables_flushChangesOf s txn
      unfold StoreAction.complete
      rw [if_pos rfl, Action.bind_apply]
      rcases run : StoreAction.flushChangesOf txn s with ⟨_ | _, mid⟩ <;> rw [run] at flushed
      · exact flushed
      · exact flushed.trans ⟨rfl, rfl, rfl⟩
  | false => exact ⟨rfl, rfl, rfl⟩

theorem sameTables_insertRow (ok : s.pool.Consistent) {table : TableId} {values : List Value}
    {answer : Except Stop RecordId}
    (run : StoreAction.insertRow txn table values s = (answer, after)) : s.SameTables after := by
  rcases StoreAction.insertRow_spec ok run with ⟨walk, -⟩ | ⟨_, _, _, -, -, edits⟩
  · exact Walks.sameTables walk
  · exact Edits.sameTables edits

/-- Calls on rows, whatever they answer, leave the tables alone. -/
theorem sameTables_carryOut (ok : s.pool.Consistent) (txn : TxnId) (call : Call) :
    s.SameTables (s.carryOut txn call) := by
  cases call with
  | insert table values => exact sameTables_insertRow ok rfl
  | delete row =>
      rcases StoreAction.deleteRow_spec ok rfl with ⟨walk, -⟩ | ⟨_, _, _, -, -, -, edits⟩
      · exact Walks.sameTables walk
      · exact Edits.sameTables edits
  | scan table => exact Walks.sameTables (StoreAction.scan_spec ok rfl).1.walk
  | read page mode => exact Walks.sameTables (StoreAction.readPage_spec ok rfl).1.walk
  | complete keep => exact sameTables_complete s txn keep

theorem sameTables_changePage {α : Type} (ok : s.pool.Consistent) {id : PageId}
    {action : PageAction α} (own : ∀ page, (action page).2.id = page.id) :
    s.SameTables (StoreAction.changePage txn id action s).2 := by
  rcases StoreAction.changePage_spec ok own rfl with ⟨reads, -⟩ | ⟨frame, -, changes, -⟩
  · exact Walks.sameTables reads.walk
  · exact Edits.sameTables changes.edits

/-! ## Where names lead -/

theorem enter_eq_ok_iff {d : Disk} {reached there : List String} :
    d.enter reached name = .ok there ↔
      (¬ Disk.nameLimit < (Utf8.bytes name).length ∧
        d.isDirectory (Path.follow reached name) = true) ∧ Path.follow reached name = there := by
  unfold Disk.enter
  simp only
  split
  · simp [*]
  · split
    · simp [*]
    · split <;> simp [*]

theorem walk_of_home {d other : Disk} (home : other.home = d.home) {names reached : List String}
    (walked : d.walk reached names = .ok path) : other.walk reached names = .ok path := by
  induction names generalizing reached with
  | nil => cases walked
  | cons first rest ih =>
      cases rest with
      | nil => exact walked
      | cons second rest =>
          simp only [Disk.walk] at walked ⊢
          cases went : d.enter reached first with
          | error fault =>
              rw [went] at walked
              cases walked
          | ok there =>
              rw [went] at walked
              have again : other.enter reached first = .ok there := by
                rw [enter_eq_ok_iff] at went ⊢
                rw [Disk.isDirectory, home]
                exact went
              rw [again]
              exact ih walked

/-- The file that a path leads to depends on the home directory only. -/
theorem locate_of_home {d other : Disk} (home : other.home = d.home) {asked : String}
    (located : d.locate asked = .ok path) : other.locate asked = .ok path := by
  unfold Disk.locate at located ⊢
  split
  · rename_i nul
    rw [if_pos nul] at located
    cases located
  · rename_i clean
    rw [if_neg clean] at located
    split
    · rename_i long
      rw [if_pos long] at located
      cases located
    · rename_i short
      rw [if_neg short] at located
      exact walk_of_home home located

end Store

end RowStore
