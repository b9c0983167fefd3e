/-
# RowStore.Proofs.Store.Fresh -- where a run begins

A fresh store has been opened and has had tables created in it, and nothing else has
happened to it.  It is in order and agrees with the empty ledger.
-/
import RowStore.Proofs.Store.Agreement
import RowStore.Proofs.Store.Prepared

namespace RowStore

set_option autoImplicit false

open RowStore.Action StoreAction

/-- A store over any files, after any number of attempts to create tables. -/
inductive Store.Fresh : Store → Prop where
  | opened {settings : Settings} {disk : Disk} {s : Store}
      (done : Store.openOn settings disk = .ok s) : Fresh s
  | created {s : Store} (name : String) (schema : Schema) (fresh : Fresh s) :
      Fresh (createTable name schema s).2

namespace Store

/-- Nothing is locked, resident or stored in a table. -/
structure Blank (s : Store) : Prop where
  settings : s.settings.pageSize ≤ Settings.largestPage
  tables : s.catalog.Proper
  files : ∀ table file, s.catalog.file table = .ok file → s.disk.content file.path = .empty
  pool : s.pool.Consistent
  absent : ∀ id, s.pool.resident? id = none
  locks : ∀ page, s.locks.holders page = []
  frames : 0 < s.pool.capacity

theorem Blank.untouched {s : Store} (blank : s.Blank) : s.Untouched :=
  ⟨blank.settings, blank.tables, blank.pool, blank.absent, blank.locks⟩

/-- Making a file empty leaves a blank store blank. -/
theorem Blank.clear {s : Store} (blank : s.Blank) (path : String) :
    Blank { s with disk := s.disk.write path .empty } := by
  refine ⟨blank.settings, blank.tables, fun table file registered => ?_, blank.pool, blank.absent,
    blank.locks, blank.frames⟩
  have before := blank.files table file registered
  unfold Disk.content Disk.read? at before ⊢
  rw [Disk.write, FinMap.get?_insert]
  split
  · rfl
  · exact before

theorem Blank.register {s : Store} (blank : s.Blank) {name : String} {file : TableFile}
    (proper : file.Proper) (empty : s.disk.content file.path = .empty) :
    Blank { s with catalog := s.catalog.add name file } := by
  have known : ∀ table held, (s.catalog.add name file).file table = .ok held →
      table = file.id ∧ held = file ∨ s.catalog.file table = .ok held :=
    fun _ _ found => Catalog.file_add found
  refine ⟨blank.settings, fun table held found => ?_, fun table held found => ?_, blank.pool,
    blank.absent, blank.locks, blank.frames⟩
  · rcases known table held found with ⟨rfl, rfl⟩ | before
    · exact ⟨rfl, proper⟩
    · exact blank.tables table held before
  · rcases known table held found with ⟨-, rfl⟩ | before
    · exact empty
    · exact blank.files table held before

theorem Blank.withoutPagesOf {s : Store} (blank : s.Blank) (table : TableId) :
    (s.withoutPagesOf table).Blank := by
  obtain ⟨settings, tables, pool, absent, locks⟩ := blank.untouched.withoutPagesOf table
  refine ⟨settings, tables, blank.files, pool, absent, locks, ?_⟩
  unfold Store.withoutPagesOf
  rw [Pool.capacity_foldl_remove]
  exact blank.frames

theorem Blank.createTable {s : Store} (blank : s.Blank) (name : String) (schema : Schema) :
    (StoreAction.createTable name schema s).2.Blank := by
  rcases run : StoreAction.createTable name schema s with ⟨answer, after⟩
  show after.Blank
  rcases createTable_spec run with rfl | ⟨path, rfl | ⟨file, made, rfl⟩⟩
  · exact blank
  · exact blank.clear path
  · obtain ⟨own, proper⟩ := proper_of_at? blank.settings made
    have empty : (s.disk.write path .empty).content file.path = .empty := by
      unfold Disk.content Disk.read? Disk.write
      rw [FinMap.get?_insert, if_pos own]
      rfl
    exact ((blank.clear path).withoutPagesOf file.id).register proper empty

theorem Fresh.blank {s : Store} (fresh : s.Fresh) : s.Blank := by
  induction fresh with
  | opened done =>
      have untouched := untouched_of_openOn done
      obtain ⟨valid, rfl⟩ := openOn_eq_ok_iff.1 done
      obtain ⟨-, frames⟩ := Settings.validate_eq_ok_iff.1 valid
      refine ⟨untouched.settings, untouched.tables, fun _ _ found => ?_, untouched.pool,
        untouched.absent, untouched.locks, ?_⟩
      · cases found
      · rw [Pool.capacity_new]
        exact frames
  | created name schema _ ih => exact ih.createTable name schema

/-- A fresh store is a prepared one: it has been given no table that was there before. -/
theorem Fresh.prepared {s : Store} (fresh : s.Fresh) : s.Prepared := by
  induction fresh with
  | opened done => exact .opened done
  | created name schema _ ih => exact ih.created name schema

theorem Blank.orderly {s : Store} (blank : s.Blank) : s.Orderly := blank.untouched.orderly

theorem Blank.wholePages {s : Store} (blank : s.Blank) {table : TableId} {file : TableFile}
    (registered : s.catalog.file table = .ok file) : s.wholePages file = 0 := by
  rw [Store.wholePages, blank.files table file registered]
  exact Nat.zero_div _

theorem Blank.agrees {s : Store} (blank : s.Blank) : Ledger.empty.Agrees s := by
  have none : ∀ table file, s.catalog.file table = .ok file → s.pageCount file = 0 :=
    fun table file registered => Nat.le_zero.1 (blank.wholePages registered ▸ s.pageCount_le file)
  refine ⟨fun id frame file there => ?_, fun id frame file there => ?_,
    fun id file registered inside => ?_, fun id values committed => ?_,
    fun id frame txn there => ?_, fun txn e member => ?_⟩
  · rw [blank.absent] at there
    cases there
  · rw [blank.absent] at there
    cases there
  · rw [none _ file registered] at inside
    exact absurd inside (Nat.not_lt_zero _)
  · cases committed
  · rw [blank.absent] at there
    cases there
  · cases member

end Store

/-! ## A store with one table

Its pages have room for one row each. -/

def TableFile.flags : TableFile :=
  ⟨TableId.ofPath "/flags.dat", "/flags.dat", ⟨[⟨"flag", .boolean⟩]⟩, 2⟩

def Store.flags : Store where
  settings := ⟨"", 2, 2⟩
  disk := (Disk.new "").write "/flags.dat" .empty
  catalog := Catalog.empty.add "flags" TableFile.flags
  locks := .empty
  pool := .new 2
  counter := .start

theorem createTable_eq {s : Store} {name path : String} {schema : Schema} {file : TableFile}
    (unknown : s.catalog.names.get? name = none)
    (located : s.disk.locate (s.settings.tablePath name) = .ok path)
    (fits : TableFile.at? path schema s.settings.pageSize = .ok file)
    (none : s.pool.residents = []) :
    createTable name schema s = (.ok file.id,
      { s with
        disk := s.disk.write path .empty
        catalog := s.catalog.add name file }) := by
  have idle : s.busyTable? name = Option.none := by
    rw [Store.busyTable?, Catalog.idOf, unknown]
    rfl
  rw [Store.createTable_apply, idle]
  simp only [located, fits, Store.withoutPagesOf, Store.cleared, none]
  rfl

/-- A path that is one name leads to the file of that name in the root. -/
theorem locate_of_names (d : Disk) {name : String} (one : Path.names name = [name])
    (plain : Path.follow [] name = [name]) (short : (Utf8.bytes name).length ≤ Disk.nameLimit)
    (whole : name.toList.contains (Char.ofNat 0) = false) :
    d.locate name = .ok (Path.ofNames [name]) := by
  have walked : d.walk [] [name] = .ok (Path.ofNames [name]) := by
    rw [Disk.walk, if_neg (Nat.not_lt.2 short), plain]
  have within : (Utf8.bytes name).length ≤ Disk.pathLimit := Nat.le_trans short (by decide)
  rw [Disk.locate, one, walked, whole, if_neg Bool.false_ne_true, if_neg (Nat.not_lt.2 within)]

theorem locate_flags (d : Disk) : d.locate "flags.dat" = .ok "/flags.dat" := by
  have names : Path.names "flags.dat" = ["flags.dat"] := by
    unfold Path.names String.splitOn
    rw [if_neg (by decide)]
    iterate 10 rw [String.splitOnAux]
    decide +kernel
  exact locate_of_names d names (by decide +kernel) (by decide +kernel) (by decide +kernel)

theorem Store.fresh_flags : Store.flags.Fresh := by
  have done : openOn ⟨"", 2, 2⟩ (.new "") =
      .ok ⟨⟨"", 2, 2⟩, .new "", .empty, .empty, .new 2, .start⟩ := rfl
  have path : Settings.tablePath ⟨"", 2, 2⟩ "flags" = "flags.dat" := by decide +kernel
  have created := (Fresh.opened done).created "flags" TableFile.flags.schema
  rw [createTable_eq rfl (path.symm ▸ locate_flags _) rfl (Pool.residents_new 2)] at created
  exact created

theorem Store.registered_flags : Store.flags.catalog.file TableFile.flags.id = .ok .flags := by
  decide +kernel

theorem TableFile.slotCount_flags :
    slotCount TableFile.flags.pageSize TableFile.flags.schema.rowBytes = 1 := by
  decide +kernel

theorem TableFile.encode_flags : TableFile.flags.schema.encode [.bool true] = .ok [1] := by
  decide +kernel

theorem Store.bounded_of_flags {s : Store} (catalog : s.catalog = Store.flags.catalog)
    (few : s.wholePages TableFile.flags < PageFile.pageLimit) : s.Bounded := by
  intro table file registered
  rw [catalog] at registered
  rcases Catalog.file_add registered with ⟨-, rfl⟩ | other
  · exact few
  · cases other

/-- A run that was evaluated to some answer has one. -/
theorem exists_ok_of_toBool {ε α : Type} {answer : Except ε α} (ok : answer.toBool = true) :
    ∃ a, answer = .ok a := by
  cases answer with
  | error => cases ok
  | ok a => exact ⟨a, rfl⟩

end RowStore
