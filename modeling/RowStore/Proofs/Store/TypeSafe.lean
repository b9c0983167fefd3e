/-
# RowStore.Proofs.Store.TypeSafe -- calls on rows of the right types

A call can fail for many reasons.  In a steady store, types are none of them: a page that
is read is decoded with the schema of its table, so what comes off it are rows of that
schema (`check_of_rows`), and a row of the schema is refused by no page (`typeSafe_insertRow`).
-/
import RowStore.Proofs.Schema.StoredForm
import RowStore.Proofs.Store.Steady

namespace RowStore

set_option autoImplicit false

open RowStore.Action

/-- The stop says that values are not of the types they should be of, or are not there. -/
def Stop.isTypeError : Stop → Bool
  | .fault (.badShape _) => true
  | .missingColumn _ => true
  | _ => false

/-! ## Pages -/

namespace Page

theorem check_of_readSlot {page : Page} {slot : Nat} {row : Row}
    (read : page.readSlot slot = .ok row) : page.schema.check row.values = .ok () := by
  unfold readSlot at read
  rw [values_eq] at read
  cases decoded : page.schema.decode (page.slotBytes slot) with
  | error fault =>
      rw [decoded] at read
      cases read
  | ok values =>
      rw [decoded] at read
      cases read
      exact (Schema.encode_of_decode decoded).1

theorem mapM_readSlot_cases (page : Page) (slots : List Nat) :
    (∃ rows, slots.mapM page.readSlot = .ok rows ∧
        ∀ row ∈ rows, page.schema.check row.values = .ok ()) ∨
      ∃ cause, slots.mapM page.readSlot = .error (.badData cause) := by
  induction slots with
  | nil => exact Or.inl ⟨[], rfl, by simp⟩
  | cons slot rest ih =>
      rw [List.mapM_cons]
      cases read : page.readSlot slot with
      | error fault =>
          unfold readSlot at read
          split at read <;> cases read
          exact Or.inr ⟨_, rfl⟩
      | ok row =>
          rcases ih with ⟨rows, listed, checked⟩ | ⟨cause, failed⟩
          · rw [listed]
            refine Or.inl ⟨row :: rows, rfl, fun other member => ?_⟩
            rcases List.mem_cons.1 member with rfl | later
            · exact check_of_readSlot read
            · exact checked other later
          · rw [failed]
            exact Or.inr ⟨cause, rfl⟩

/-- **What a page answers** are rows of its schema. -/
theorem check_of_rows {page : Page} {rows : List Row} (listed : page.rows = .ok rows) :
    ∀ row ∈ rows, page.schema.check row.values = .ok () := by
  rcases page.mapM_readSlot_cases page.usedSlots with ⟨found, same, checked⟩ | ⟨cause, failed⟩
  · rw [Page.rows, same] at listed
    cases listed
    exact checked
  · rw [Page.rows, failed] at listed
    cases listed

theorem rows_error {page : Page} {fault : Fault} (failed : page.rows = .error fault) :
    (Stop.fault fault).isTypeError = false := by
  rcases page.mapM_readSlot_cases page.usedSlots with ⟨rows, same, -⟩ | ⟨cause, same⟩ <;>
    rw [Page.rows, same] at failed <;> cases failed
  rfl

/-- A page refuses no row of its schema for its types. -/
theorem insert_error {page : Page} {values : List Value} {fault : Fault}
    (checked : page.schema.check values = .ok ()) (failed : page.insert values = .error fault) :
    (Stop.fault fault).isTypeError = false := by
  rcases page.insert_cases values with ⟨cause, refused, run⟩ | ⟨_, -, ⟨-, run⟩ |
    ⟨_, -, -, -, run⟩⟩ <;> cases run.symm.trans failed
  · rcases Schema.encode_error refused with ⟨_, mismatch, -⟩ | ⟨-, _, -, rfl⟩
    · cases checked.symm.trans mismatch
    · rfl
  · rfl

theorem delete_error {page : Page} {id : RecordId} {fault : Fault}
    (failed : page.delete id = .error fault) :
    (Stop.fault (StoreAction.noRowAt id fault)).isTypeError = false := by
  rcases page.delete_cases id with ⟨-, run⟩ | ⟨-, ⟨-, run⟩ | ⟨-, ⟨-, run⟩ | ⟨-, run⟩⟩⟩ <;>
    cases run.symm.trans failed <;> rfl

end Page

namespace Pool

theorem allocate_error {p : Pool} {fault : Fault} (failed : p.allocate = .error fault) :
    fault = .poolFull := by
  unfold allocate at failed
  repeat' split at failed
  all_goals cases failed
  rfl

theorem install_error {p : Pool} {frame : Frame} {fault : Fault}
    (failed : p.install frame = .error fault) : fault = .poolFull := by
  unfold install at failed
  split at failed
  · cases failed
  · split at failed
    · cases failed
    · rename_i refused
      cases failed
      exact allocate_error refused

theorem bring_error {p : Pool} {page : Page} {fault : Fault} (failed : p.bring page = .error fault) :
    fault = .poolFull := by
  unfold bring at failed
  simp only at failed
  split at failed
  · cases failed
  · rename_i refused
    cases failed
    exact install_error refused

end Pool

namespace Store

/-- An image of the right size is not refused for the columns of a proper file. -/
theorem readFromDisk_error {s : Store} {file : TableFile} {id : PageId} {fault : Fault}
    (proper : file.Proper) (failed : s.readFromDisk file id = .error fault) :
    (Stop.fault fault).isTypeError = false := by
  unfold readFromDisk at failed
  split at failed
  · rename_i foreign
    unfold TableFile.checkOwner at foreign
    split at foreign <;> cases foreign
    cases failed
    rfl
  · split at failed
    · cases failed
      rfl
    · split at failed
      · cases failed
        rfl
      · rename_i image read
        have size : image.size = file.pageSize := PageFile.size_of_read read
        unfold Page.load at failed
        simp only [size, if_neg proper.wide, if_neg proper.roomy,
          if_neg (Nat.not_lt.2 proper.addressed)] at failed
        repeat' split at failed
        all_goals cases failed
        all_goals rfl

end Store

namespace StoreAction

open Store

variable {α β : Type} {files : TableId → Option TableFile} {txn : TxnId} {s : Store}

/-- However the action stops, it is not because of types. -/
def TypeSafe (s : Store) (action : StoreAction α) : Prop :=
  ∀ stop, (action s).1 = .error stop → stop.isTypeError = false

theorem typeSafe_of_ok {action : StoreAction α} {a : α} (done : (action s).1 = .ok a) :
    TypeSafe s action := by
  intro stop failed
  rw [done] at failed
  cases failed

theorem typeSafe_of_error {action : StoreAction α} {stop : Stop}
    (stopped : (action s).1 = .error stop) (other : stop.isTypeError = false) :
    TypeSafe s action := by
  intro cause failed
  rw [stopped] at failed
  cases failed
  exact other

theorem TypeSafe.bind {first : StoreAction α} {next : α → StoreAction β} (safe : TypeSafe s first)
    (later : ∀ a mid, first s = (.ok a, mid) → TypeSafe mid (next a)) :
    TypeSafe s (first >>= next) := by
  intro stop failed
  rw [bind_apply] at failed
  rcases run : first s with ⟨cause | a, mid⟩ <;> rw [run] at failed
  · cases failed
    exact safe stop (by rw [run])
  · exact later a mid run stop failed

theorem typeSafe_ofExcept {r : Except Fault α}
    (other : ∀ fault, r = .error fault → (Stop.fault fault).isTypeError = false) :
    TypeSafe s (ofExcept r : StoreAction α) := by
  cases r with
  | ok a => exact typeSafe_of_ok rfl
  | error fault => exact typeSafe_of_error rfl (other fault rfl)

theorem typeSafe_query {look : Store → Except Fault α}
    (other : ∀ fault, look s = .error fault → (Stop.fault fault).isTypeError = false) :
    TypeSafe s (query look) := typeSafe_ofExcept other

theorem typeSafe_tableFile (table : TableId) : TypeSafe s (tableFile table) := by
  refine typeSafe_query fun fault unknown => ?_
  unfold Catalog.file at unknown
  split at unknown <;> cases unknown
  rfl

/-! ## Reaching a page -/

theorem typeSafe_acquire (txn : TxnId) (r : LockRequest) : TypeSafe s (acquire txn r) := by
  intro stop failed
  unfold acquire at failed
  simp only [bind_apply, get_apply, set_apply] at failed
  generalize s.locks.request txn r = outcome at failed
  obtain ⟨_ | _ | _, locks⟩ := outcome <;> cases failed <;> rfl

theorem typeSafe_bring (page : Page) : TypeSafe s (bring page) := by
  refine TypeSafe.bind (typeSafe_of_ok rfl) fun now _ _ => TypeSafe.bind ?_ fun _ _ _ =>
    typeSafe_of_ok rfl
  refine typeSafe_ofExcept fun fault failed => ?_
  rw [Pool.bring_error failed]
  rfl

theorem typeSafe_fetch (tables : s.catalog.Proper) (id : PageId) : TypeSafe s (fetch id) := by
  refine TypeSafe.bind (typeSafe_of_ok rfl) fun found mid looked => ?_
  rw [lookup_apply] at looked
  cases looked
  cases s.pool.resident? id with
  | some frame => exact typeSafe_of_ok rfl
  | none =>
      refine TypeSafe.bind (typeSafe_tableFile _) fun file _ known => ?_
      obtain ⟨registered, rfl⟩ := query_ok known
      have proper := (tables _ file registered).2
      refine TypeSafe.bind (typeSafe_query fun fault failed => readFromDisk_error proper failed) ?_
      exact fun page _ _ => typeSafe_bring page

theorem typeSafe_readPage (steady : s.Steady files) (txn : TxnId) (id : PageId)
    (mode : LockMode) : TypeSafe s (readPage txn id mode) := by
  refine TypeSafe.bind (typeSafe_acquire txn _) fun _ mid acquired => ?_
  exact typeSafe_fetch (steady.walks (acquire_spec acquired).1.walk).tables id

/-- The page that is read is one of its table. -/
theorem schema_of_readPage {id : PageId} {mode : LockMode} {frame : Frame} {mid : Store}
    (steady : s.Steady files) (read : readPage txn id mode s = (.ok frame, mid)) :
    mid.Steady files ∧ ∃ file, files id.table = some file ∧ frame.page.schema = file.schema := by
  obtain ⟨reads, found⟩ := readPage_spec steady.pool read
  have still := steady.walks reads.walk
  exact ⟨still, still.schemas id frame (found frame rfl).1⟩

theorem typeSafe_changePage {id : PageId} {action : PageAction α} (steady : s.Steady files)
    (other : ∀ page fault, (∃ file, files id.table = some file ∧ page.schema = file.schema) →
      (action page).1 = .error fault → (Stop.fault fault).isTypeError = false) :
    TypeSafe s (changePage txn id action) := by
  refine TypeSafe.bind (typeSafe_readPage steady txn id .exclusive) fun frame mid read => ?_
  have known := (schema_of_readPage steady read).2
  have safe := fun fault => other frame.page fault known
  generalize action frame.page = result at safe
  obtain ⟨reply, page⟩ := result
  refine TypeSafe.bind (typeSafe_of_ok rfl) fun _ _ _ => ?_
  cases reply with
  | ok a => exact typeSafe_of_ok rfl
  | error fault => exact typeSafe_of_error rfl (safe fault rfl)

theorem typeSafe_markChanged (txn : TxnId) (frame : Frame) : TypeSafe s (markChanged txn frame) := by
  refine TypeSafe.bind (typeSafe_of_ok rfl) fun now _ _ => TypeSafe.bind ?_ fun _ _ _ =>
    typeSafe_of_ok rfl
  refine typeSafe_ofExcept fun fault failed => ?_
  rw [Pool.install_error failed]
  rfl

/-! ## Inserting -/

section

variable {table : TableId} {file : TableFile} {values : List Value}
  (known : files table = some file) (checked : file.schema.check values = .ok ())

include known checked

theorem typeSafe_insertIfRoom {id : PageId} (own : id.table = table) (steady : s.Steady files) :
    TypeSafe s (changePage txn id (insertIfRoom txn values)) := by
  refine typeSafe_changePage steady fun page fault held failed => ?_
  obtain ⟨other, listed, schema⟩ := held
  rw [own, known] at listed
  cases listed
  rw [← schema] at checked
  rw [insertIfRoom_apply] at failed
  split at failed
  · cases failed
  · cases inserted : page.insert values with
    | error cause =>
        rw [inserted] at failed
        cases failed
        exact Page.insert_error checked inserted
    | ok pair =>
        rw [inserted] at failed
        cases failed

theorem typeSafe_insertOnPages (own : file.id = table) (steady : s.Steady files)
    (pages : List Nat) : TypeSafe s (insertOnPages file txn values pages) := by
  induction pages generalizing s with
  | nil => exact typeSafe_of_ok rfl
  | cons number rest ih =>
      refine TypeSafe.bind (typeSafe_insertIfRoom known checked own steady) fun tried mid ran => ?_
      obtain ⟨_ | id, frame⟩ := tried
      · rcases changePage_insertIfRoom steady.pool ran with ⟨reads, -⟩ | ⟨row, changed, same, -⟩
        · exact ih (steady.walks reads.walk)
        · cases same
      · exact typeSafe_of_ok rfl

theorem typeSafe_insertOnNewPage (own : file.id = table) (steady : s.Steady files)
    (attempts : Nat) : TypeSafe s (insertOnNewPage file txn values attempts) := by
  induction attempts generalizing s with
  | zero => exact typeSafe_of_error rfl rfl
  | succ attempts ih =>
      refine TypeSafe.bind (typeSafe_of_ok (by rw [appendPage_apply])) fun page grown ran => ?_
      rw [appendPage_apply] at ran
      cases ran
      have larger : (s.grown file).Steady files := steady.congr rfl rfl rfl
      refine TypeSafe.bind (typeSafe_insertIfRoom known checked own larger) fun tried mid ran => ?_
      obtain ⟨_ | id, frame⟩ := tried
      · rcases changePage_insertIfRoom larger.pool ran with ⟨reads, -⟩ | ⟨row, changed, same, -⟩
        · exact ih (larger.walks reads.walk)
        · cases same
      · exact typeSafe_of_ok rfl

theorem typeSafe_insertInFile (own : file.id = table) (steady : s.Steady files) :
    TypeSafe s (insertInFile file txn values) := by
  unfold insertInFile
  rw [checked]
  refine TypeSafe.bind (typeSafe_of_ok rfl) fun _ start began => ?_
  obtain rfl := ofExcept_state began
  refine TypeSafe.bind (typeSafe_of_ok rfl) fun now same got => ?_
  cases got
  refine TypeSafe.bind (typeSafe_insertOnPages known checked own steady _) fun stored mid ran => ?_
  cases stored with
  | some found => exact typeSafe_of_ok rfl
  | none =>
      rcases insertOnPages_spec steady.pool ran with ⟨reads, -⟩ | ⟨row, changed, same, -⟩
      · refine TypeSafe.bind (typeSafe_of_ok rfl) fun full _ got => ?_
        cases got
        exact typeSafe_insertOnNewPage known checked own (steady.walks reads.walk) _
      · cases same

/-- **Inserting a row** of the table's schema fails for its types in no case. -/
theorem typeSafe_insertRow (steady : s.Steady files) : TypeSafe s (insertRow txn table values) := by
  refine TypeSafe.bind (typeSafe_tableFile table) fun held start looked => ?_
  obtain ⟨registered, rfl⟩ := query_ok looked
  have listed := steady.fits table held registered
  rw [known] at listed
  cases listed
  have own := (steady.tables table file registered).1
  refine TypeSafe.bind (typeSafe_insertInFile known checked own steady) fun stored _ _ => ?_
  exact TypeSafe.bind (typeSafe_markChanged txn stored.2) fun _ _ _ => typeSafe_of_ok rfl

end

/-! ## Deleting -/

theorem typeSafe_deleteInFile (steady : s.Steady files) (file : TableFile) (row : Row) :
    TypeSafe s (deleteInFile file txn row) := by
  unfold deleteInFile
  cases row.id? with
  | none => exact typeSafe_of_error rfl rfl
  | some id =>
      refine TypeSafe.bind (typeSafe_ofExcept fun fault foreign => ?_) fun _ start began => ?_
      · unfold TableFile.checkOwner at foreign
        split at foreign <;> cases foreign
        rfl
      obtain rfl := ofExcept_state began
      refine TypeSafe.bind (typeSafe_of_ok rfl) fun now _ got => ?_
      cases got
      split
      · exact TypeSafe.bind (typeSafe_of_error rfl rfl) fun _ _ failed => by cases failed
      · have erases : TypeSafe start (changePage txn id.page (eraseRow txn id)) := by
          refine typeSafe_changePage steady fun page fault _ failed => ?_
          rcases eraseRow_cases txn id page with ⟨cause, refused, same⟩ | ⟨rest, -, same⟩ <;>
            rw [same] at failed <;> cases failed
          exact Page.delete_error refused
        exact TypeSafe.bind erases fun _ _ _ => typeSafe_of_ok rfl

theorem typeSafe_deleteRow (steady : s.Steady files) (row : Row) :
    TypeSafe s (deleteRow txn row) := by
  unfold deleteRow
  cases row.id? with
  | none => exact typeSafe_of_error rfl rfl
  | some id =>
      refine TypeSafe.bind (typeSafe_tableFile _) fun file start looked => ?_
      obtain ⟨-, rfl⟩ := query_ok looked
      exact TypeSafe.bind (typeSafe_deleteInFile steady file row) fun changed _ _ =>
        typeSafe_markChanged txn changed

end StoreAction

end RowStore
