/-
# RowStore.Proofs.Store.Refusal -- rows that cannot be stored

Whether a row has the right columns is checked before anything else, so a row that has not
leaves everything as it was.  Whether its texts are short enough is seen only on the page that
is to take it.  Such a row leaves no trace either if some page is not full (`Unstored.files`).
If all are full, or there is none, it leaves behind the page that was appended for it
(`Unstored.grown`, `grown_by_long_note`).
-/
import RowStore.Proofs.Schema.StoredForm
import RowStore.Proofs.Store.FirstFit

namespace RowStore

set_option autoImplicit false

open RowStore.Action

/-- A page refuses a row of the right columns only for a text that is too long, unless it is
full. -/
theorem Page.insert_badData {page : Page} {values : List Value} {cause : DataFault}
    (failed : page.insert values = .error (.badData cause)) :
    ∃ text, Value.text text ∈ values ∧ textLimit < (Utf8.bytes text).length := by
  by_contra short
  push Not at short
  obtain ⟨bytes, fits⟩ := Schema.encodeValues_isOk_iff.2 short
  rcases page.insert_cases values with ⟨_, refused, run⟩ | ⟨_, -, ⟨-, run⟩ |
    ⟨_, -, -, -, run⟩⟩ <;> cases run.symm.trans failed
  rcases Schema.encode_error refused with ⟨_, -, other⟩ | ⟨-, _, long, -⟩
  · cases other
  · cases fits.symm.trans long

namespace Store

variable {txn : TxnId} {s after : Store} {file : TableFile} {values : List Value}

/-- What a row leaves behind that has the right columns and cannot be stored. -/
structure Unstored (s after : Store) (txn : TxnId) (file : TableFile) : Prop where
  changes : ∀ page, after.unwritten page = s.unwritten page
  rows : ∀ owner, after.seen owner = s.seen owner
  files : ¬ s.AllUsed txn file → after.disk = s.disk
  grown : s.AllUsed txn file →
    after.disk = (s.grown file).disk ∧ after.wholePages file = s.wholePages file + 1

/-- A page with room has a slot that the transaction sees free. -/
theorem Legible.not_allUsed (legible : s.Legible file) {number : Nat} {page : Page}
    (inside : number < s.pageCount file) (found : s.pageFor txn file number = .ok page)
    (room : page.freeCount ≠ 0) : ¬ s.AllUsed txn file := by
  intro used
  refine room (Page.freeCount_eq_zero_iff.2 fun slot within => ?_)
  rw [legible.slots_eq found] at within
  exact (legible.seen_isSome_iff found).1 (used ⟨⟨file.id, number⟩, slot⟩ ⟨rfl, inside, within⟩)

/-- What is in a row keeps no page from being reached. -/
theorem Unreached.not_badData {number : Nat} {cause : DataFault} (proper : file.Proper) :
    ¬ s.Unreached file number (.fault (.badData cause)) := by
  rintro (hindered | ⟨-, failed⟩)
  · cases hindered
  · rcases readFromDisk_own_error proper failed with ⟨-, same⟩ | ⟨-, _, same⟩ <;> cases same

/-- A row of the right columns that is refused leaves an empty page if all slots are used. -/
theorem Legible.unstored (legible : s.Legible file) {cause : DataFault}
    (run : StoreAction.insertRow txn file.id values s = (.error (.fault (.badData cause)), after)) :
    (∃ text, Value.text text ∈ values ∧ textLimit < (Utf8.bytes text).length) ∧
      s.Unstored after txn file := by
  obtain ⟨changes, rows, -⟩ := legible.insert_error run
  rcases StoreAction.insertRow_tried legible run with
    ⟨cause, -, same, -⟩ | ⟨-, number, base, reply, comes, full, tried, same⟩
  · cases same
  cases tried with
  | stopped _ unreached =>
      cases same
      exact absurd unreached (Unreached.not_badData legible.proper)
  | stored => cases same
  | refused reads sight found room refused =>
      cases same
      refine ⟨Page.insert_badData refused, changes, rows, ?_, ?_⟩
      · intro free
        cases comes with
        | old more => exact reads.disk.trans more.disk
        | new => exact absurd (legible.allUsed_of_full full) free
      · intro used
        cases comes with
        | old more inside =>
            rw [pageFor_reads more] at found
            exact absurd used (legible.not_allUsed inside found room)
        | new more =>
            have disk := reads.disk.trans (disk_grown_congr more.disk file)
            exact ⟨disk, (views_congr disk file).1.trans legible.wholePages_grown⟩

/-- Only the check before everything else refuses a row for its columns. -/
theorem Reachable.unshaped (reachable : s.Reachable) {table : TableId}
    (registered : s.catalog.file table = .ok file) {cause : ShapeFault}
    (run : StoreAction.insertRow txn table values s = (.error (.fault (.badShape cause)), after)) :
    file.schema.check values = .error cause ∧ after = s := by
  cases checked : file.schema.check values with
  | ok =>
      let files (table : TableId) := (s.catalog.file table).toOption
      have known : ∀ table file, s.catalog.file table = .ok file ↔ files table = some file := by
        intro table file
        simp only [files]
        cases s.catalog.file table <;> simp [Except.toOption]
      have safe : StoreAction.TypeSafe s (StoreAction.insertRow txn table values) :=
        StoreAction.typeSafe_insertRow ((known table file).1 registered) checked
          (reachable.faithful known).toSteady
      exact Bool.noConfusion (safe _ (congrArg Prod.fst run))
  | error fault =>
      unfold StoreAction.insertRow StoreAction.insertInFile at run
      simp only [StoreAction.tableFile, bind_apply, StoreAction.query_apply, registered,
        Except.mapError, ofExcept_apply, checked] at run
      cases run
      exact ⟨rfl, rfl⟩

/-- **Refused rows.**  In a reachable store, a row that is refused for its columns leaves
everything as it was.  One that is refused for a text that is too long changes no page and no
row, and no file either unless all slots of the table are used: then it leaves an empty page. -/
theorem Reachable.insert_refused (reachable : s.Reachable) {table : TableId}
    (registered : s.catalog.file table = .ok file) {fault : Fault}
    (run : StoreAction.insertRow txn table values s = (.error (.fault fault), after)) :
    (∀ cause, fault = .badShape cause → file.schema.check values = .error cause ∧ after = s) ∧
      ∀ cause, fault = .badData cause → s.wholePages file < PageFile.pageLimit →
        (∃ text, Value.text text ∈ values ∧ textLimit < (Utf8.bytes text).length) ∧
          s.Unstored after txn file := by
  refine ⟨?_, ?_⟩
  · rintro cause rfl
    exact reachable.unshaped registered run
  · rintro cause rfl counted
    obtain ⟨legible, rfl⟩ := reachable.legible registered counted
    exact legible.unstored run

end Store

/-! ## A table of notes

Pages have room for one note each. -/

def TableFile.notes : TableFile :=
  ⟨TableId.ofPath "/notes.dat", "/notes.dat", ⟨[⟨"note", .varchar⟩]⟩, 133⟩

def Store.notes : Store where
  settings := ⟨"", 133, 2⟩
  disk := (Disk.new "").write "/notes.dat" .empty
  catalog := Catalog.empty.add "notes" TableFile.notes
  locks := .empty
  pool := .new 2
  counter := .start

theorem Store.fresh_notes : Store.notes.Fresh := by
  have done : openOn ⟨"", 133, 2⟩ (.new "") =
      .ok ⟨⟨"", 133, 2⟩, .new "", .empty, .empty, .new 2, .start⟩ := rfl
  have path : Settings.tablePath ⟨"", 133, 2⟩ "notes" = "notes.dat" := by decide +kernel
  have names : Path.names "notes.dat" = ["notes.dat"] := by
    unfold Path.names String.splitOn
    rw [if_neg (by decide)]
    iterate 10 rw [String.splitOnAux]
    decide +kernel
  have located (d : Disk) : d.locate "notes.dat" = .ok "/notes.dat" :=
    locate_of_names d names (by decide +kernel) (by decide +kernel) (by decide +kernel)
  have created := (Fresh.opened done).created "notes" TableFile.notes.schema
  rw [createTable_eq rfl (path.symm ▸ located _) rfl (Pool.residents_new 2)] at created
  exact created

/-- A note that is one byte too long. -/
def longNote : Value := .text (String.ofList (List.replicate 129 'x'))

/-- **A page for nothing.**  The table is empty, the note is refused, and the file has a page. -/
theorem Store.grown_by_long_note : notes.Reachable ∧ notes.wholePages .notes = 0 ∧
    ∃ cause after, StoreAction.insertRow ⟨1⟩ TableFile.notes.id [longNote] notes =
        (.error (.fault (.badData cause)), after) ∧
      notes.Unstored after ⟨1⟩ .notes ∧ after.wholePages .notes = 1 := by
  have listed : notes.catalog.file TableFile.notes.id = .ok .notes := by decide +kernel
  have none : notes.wholePages .notes = 0 := by decide +kernel
  have refused : (StoreAction.insertRow ⟨1⟩ TableFile.notes.id [longNote] notes).1 =
      .error (.fault (.badData (.textTooLong 129))) := by decide +kernel
  have run := Prod.fst_eq_iff.1 refused
  have reachable := Reachable.prepared fresh_notes.prepared
  have unstored := (reachable.insert_refused listed run).2 _ rfl (by rw [none]; decide)
  have used : notes.AllUsed ⟨1⟩ .notes := by
    rintro id ⟨-, inside, -⟩
    exact absurd (Nat.lt_of_lt_of_le inside (notes.pageCount_le _)) (by rw [none]; omega)
  refine ⟨reachable, none, _, _, run, unstored.2, ?_⟩
  rw [(unstored.2.grown used).2, none]

end RowStore
