/-
# RowStore.Proofs.CommandLine.Load -- what the program loads

The program creates a table and fills it, in transactions of `batchSize` rows.  With a few
frames more than the rows of one transaction take, it gets through, whatever the names are,
and leaves the rows in the order of their numbers, on as many pages as they need
(`load_in_order`).  The next run of the program finds them so.
-/
import RowStore.Main
import RowStore.Proofs.Catalog.Inverse
import RowStore.Proofs.Schema.StoredForm
import RowStore.Proofs.Store.Loading

namespace RowStore

set_option autoImplicit false

open StoreAction Load

namespace CommandLine

/-! ## How a command runs -/

section

variable {α β : Type} {s mid after : Store}

theorem run_bind {first : Run α} {a : α} (ran : first s = (.ok a, mid)) (next : α → Run β) :
    (first >>= next) s = next a mid := by
  show (ExceptT.bind first next : Run β) s = _
  simp only [ExceptT.bind, ExceptT.mk, ExceptT.bindCont, bind, StateT.bind]
  rw [ran]

theorem run_attempt {action : StoreAction α} {a : α} (ran : action s = (.ok a, after))
    (attempts : List String) : attempt attempts action s = (.ok a, after) := by
  rw [attempt, ran]

end

/-! ## Names -/

theorem randNat_between {gen : Type} [RandomGen gen] (source : gen) {low high : Nat}
    (range : low ≤ high) :
    low ≤ (randNat source low high).1 ∧ (randNat source low high).1 ≤ high := by
  unfold randNat
  simp only [if_neg (Nat.not_lt.2 range)]
  have inside : ∀ v, v % (high - low + 1) < high - low + 1 :=
    fun v => Nat.mod_lt v (Nat.succ_pos _)
  constructor
  · exact Nat.le_add_right _ _
  · refine Nat.le_trans (Nat.add_le_add_left (Nat.lt_succ_iff.1 (inside _)) low) ?_
    omega

/-- Each letter takes one byte. -/
theorem length_encode_letters (count : Nat) (source : StdGen) :
    ((letters count source).flatMap String.utf8EncodeChar).length = count := by
  have single : ∀ letter ≤ 25, (Char.ofNat ('a'.toNat + letter)).val ≤ 127 := by decide
  induction count generalizing source with
  | zero => rfl
  | succ count ih =>
      have small := (randNat_between source (Nat.zero_le 25)).2
      unfold letters
      generalize randNat source 0 25 = drawn at small ⊢
      obtain ⟨letter, rest⟩ := drawn
      have one := Char.utf8Size_eq_one_iff.2 (single letter small)
      rw [List.flatMap_cons, List.length_append, ih, String.length_utf8EncodeChar, one]
      exact Nat.add_comm 1 count

/-- **Every name** that the program makes up can be stored, whatever the seed. -/
theorem short_nameFrom (seed : Nat) (row : Int32) :
    (Utf8.bytes (nameFrom seed row)).length ≤ textLimit := by
  have range : 3 ≤ 11 := by decide
  have bound := (randNat_between (mkStdGen (seed + row.toInt.toNat)) range).2
  unfold nameFrom
  generalize randNat (mkStdGen (seed + row.toInt.toNat)) 3 11 = drawn at bound ⊢
  obtain ⟨length, source⟩ := drawn
  have encoded := length_encode_letters length source
  have bytes : (Utf8.bytes (String.ofList (letters length source))).length = length := by
    unfold Utf8.bytes
    simpa [List.utf8Encode] using encoded
  show (Utf8.bytes (String.ofList (letters length source))).length ≤ textLimit
  rw [bytes]
  exact Nat.le_trans bound (by decide)

/-! ## The rows of a load -/

/-- The table of people in the file at a path. -/
def peopleFile (settings : Settings) (path : String) : TableFile :=
  ⟨TableId.ofPath path, path, people, settings.pageSize⟩

/-- The rows of the people with the numbers below `n`, in the order of the numbers.  Row `k`
lies in slot `k % slots` of page `k / slots`. -/
structure InOrder (table : TableId) (slots : Nat) (name : Int32 → String) (n : Nat)
    (rows : List Row) : Prop where
  count : rows.length = n
  row : ∀ k, k < n → ∃ id : Int32, id.toInt = k ∧
    rows[k]? = some ⟨some ⟨⟨table, k / slots⟩, k % slots⟩, person name id⟩

theorem rowNumbers_eq {start stop : Int32} {first last : Nat} (from_first : start.toInt = first)
    (to_last : stop.toInt = last) :
    rowNumbers start stop =
      (List.range' first (last - first)).map fun (k : Nat) => Int32.ofInt k := by
  have count : ((last : Int) - first).toNat = last - first := by omega
  rw [rowNumbers, from_first, to_last, count, List.range'_eq_map_range, List.map_map]
  rfl

variable {job : Load} {ℓ : Ledger} {s : Store} {txn : TxnId} {name : Int32 → String} {start n : Nat}

/-- The rows of a job are people with these names. -/
def Numbers (job : Load) (name : Int32 → String) : Prop :=
  ∀ k : Nat, job.row k = person name (Int32.ofInt k)

/-- The rows of one transaction. -/
theorem insertPeople_spec (numbers : Numbers job name) (ready : job.Ready)
    (frames : 256 ⌈/⌉ job.slots + 2 ≤ job.store.pool.capacity)
    (loading : job.Loading ℓ s txn start n) (begun : start ≤ n) {count : Nat}
    (few : n + count ≤ start + 256) (room : n + count < PageFile.pageLimit) :
    ∃ settled after, insertPeople job.file.id txn name
        ((List.range' n count).map fun (k : Nat) => Int32.ofInt k) s = (.ok (), after) ∧
      job.Loading settled after txn start (n + count) := by
  induction count generalizing ℓ s n with
  | zero => exact ⟨ℓ, s, rfl, loading⟩
  | succ count ih =>
      have number : n / job.slots + 1 < PageFile.pageLimit := by
        have small := Nat.div_le_self n job.slots
        omega
      have roomy : job.Roomy start n := roomy_of_batch ready.slots_pos (by omega) frames
      obtain ⟨mid, inserted, more⟩ := loading.insert ready begun roomy number
      obtain ⟨settled, after, later, loaded⟩ := ih more (by omega) (by omega) (by omega)
      refine ⟨settled, after, ?_, ?_⟩
      · rw [numbers] at inserted
        rw [List.range'_succ, List.map_cons, insertPeople, run_bind (run_attempt inserted _)]
        exact later
      · rwa [Nat.add_right_comm, Nat.add_assoc] at loaded

/-- One transaction. -/
theorem loadBatch_spec (numbers : Numbers job name) (ready : job.Ready)
    (frames : 256 ⌈/⌉ job.slots + 2 ≤ job.store.pool.capacity)
    (loaded : job.Loaded ℓ s n) {count : Nat} (few : count ≤ 256)
    (room : n + count < PageFile.pageLimit) :
    ∃ settled after, loadBatch job.file.id name
        ((List.range' n count).map fun (k : Nat) => Int32.ofInt k) s = (.ok (), after) ∧
      job.Loaded settled after (n + count) := by
  have begun := loaded.begin s.counter.issue.1 s.counter.issue.2
  obtain ⟨ℓ', mid, inserted, loading⟩ :=
    insertPeople_spec numbers ready frames begun (Nat.le_refl n) (by omega) room
  obtain ⟨after, ended, committed⟩ := loading.commit ready
  refine ⟨_, after, ?_, committed⟩
  have started : begin s = (.ok s.counter.issue.1, { s with counter := s.counter.issue.2 }) := rfl
  rw [loadBatch, run_bind (run_attempt started _), run_bind inserted]
  exact run_attempt (commit_of_complete ended) _

/-- **The loop** gets through, batch by batch. -/
theorem loadFrom_spec (numbers : Numbers job name) (ready : job.Ready)
    (frames : 256 ⌈/⌉ job.slots + 2 ≤ job.store.pool.capacity) (rows : Int32) {first : Int32}
    (loaded : job.Loaded ℓ s n) (here : first.toInt = n) :
    ∃ settled after, loadFrom job.file.id rows name first s = (.ok (), after) ∧
      job.Loaded settled after (max n rows.toInt.toNat) := by
  induction first using loadFrom.induct rows generalizing ℓ s n with
  | case1 first more ih =>
      have before := Int32.lt_iff_toInt_lt.1 more
      have ending := toInt_batchEnd more
      have largest := Int32.toInt_lt rows
      rw [here] at before ending
      -- The batch ends at the last row or is full.
      obtain ⟨count, last⟩ : ∃ count : Nat, min rows.toInt (n + 256) = (n + count : Nat) :=
        ⟨(min rows.toInt (n + 256) - n).toNat, by omega⟩
      have pageLimit : PageFile.pageLimit = 4294967296 := rfl
      rw [last] at ending
      have few : count ≤ 256 := by omega
      have room : n + count < PageFile.pageLimit := by omega
      obtain ⟨ℓ', mid, batched, committed⟩ := loadBatch_spec numbers ready frames loaded few room
      obtain ⟨settled, after, later, all⟩ := ih committed ending
      refine ⟨settled, after, ?_, ?_⟩
      · rw [loadFrom, if_pos more, rowNumbers_eq here ending, Nat.add_sub_cancel_left,
          run_bind batched]
        exact later
      · have same : max (n + count) rows.toInt.toNat = max n rows.toInt.toNat := by omega
        rwa [same] at all
  | case2 first enough =>
      have past := Int32.lt_iff_toInt_lt.not.1 enough
      refine ⟨ℓ, s, ?_, ?_⟩
      · rw [loadFrom, if_neg enough]
        rfl
      · have same : max n rows.toInt.toNat = n := by omega
        rwa [same]

/-! ## A run of the program -/

section

variable {settings : Settings} {disk : Disk} {store : Store} {table path : String}

theorem at?_people (room : slotCount settings.pageSize people.rowBytes ≠ 0) :
    TableFile.at? path people settings.pageSize = .ok (peopleFile settings path) := by
  unfold TableFile.at?
  rw [if_neg (not_or.2 ⟨by decide, room⟩)]
  rfl

/-- What a newly opened store knows after the table was registered: this one. -/
theorem file_add_empty (name : String) (file : TableFile) :
    (Catalog.empty.add name file).file file.id = .ok file ∧
      ∀ table held, (Catalog.empty.add name file).file table = .ok held →
        table = file.id ∧ held = file := by
  refine ⟨?_, fun table held found => ?_⟩
  · rw [Catalog.file, Catalog.tables_add, if_pos rfl]
  · rcases Catalog.file_add found with own | other
    · exact own
    · cases other

/-- A newly opened store in which the table was created. -/
def withPeople (settings : Settings) (disk : Disk) (table path : String) : Store :=
  ⟨settings, disk.write path .empty, Catalog.empty.add table (peopleFile settings path), .empty,
    .new settings.poolPages, .start⟩

theorem createTable_people (opened : Store.openOn settings disk = .ok store)
    (located : disk.locate (settings.tablePath table) = .ok path)
    (room : slotCount settings.pageSize people.rowBytes ≠ 0) :
    createTable table people store =
      (.ok (peopleFile settings path).id, withPeople settings disk table path) := by
  obtain ⟨-, rfl⟩ := Store.openOn_eq_ok_iff.1 opened
  exact createTable_eq rfl located (at?_people room) (Pool.residents_new _)

/-- Opening the table in a newly opened store leaves what is in its file. -/
theorem openTable_people (opened : Store.openOn settings disk = .ok store)
    (located : disk.locate (settings.tablePath table) = .ok path)
    (room : slotCount settings.pageSize people.rowBytes ≠ 0) :
    ∃ known, openTable table people store = (.ok (peopleFile settings path).id, known) ∧
      known.Untouched ∧ known.catalog = Catalog.empty.add table (peopleFile settings path) ∧
      known.pool.capacity = settings.poolPages ∧ known.disk.content path = disk.content path := by
  have untouched := (Store.untouched_of_openOn opened).openTable table people
  have ran := Store.openTable_apply table people store
  obtain ⟨-, rfl⟩ := Store.openOn_eq_ok_iff.1 opened
  have unknown : Catalog.empty.idOf table = .error (.unknownTable table) := rfl
  simp only [unknown, located, at?_people room] at ran
  rw [ran] at untouched
  refine ⟨_, ran, untouched, ?_⟩
  split
  · rename_i missing
    refine ⟨rfl, Pool.capacity_new _, ?_⟩
    rw [Disk.content, Disk.content, Option.isNone_iff_eq_none.1 missing]
    show ((disk.write path .empty).read? path).getD .empty = _
    rw [Disk.read?, Disk.write, FinMap.get?_insert, if_pos rfl]
    rfl
  · exact ⟨rfl, Pool.capacity_new _, rfl⟩

/-- The job that a load is. -/
def peopleLoad (settings : Settings) (disk : Disk) (table path : String) (name : Int32 → String) :
    Load :=
  ⟨withPeople settings disk table path, peopleFile settings path,
    fun k => person name (Int32.ofInt k)⟩

theorem ready_peopleLoad (opened : Store.openOn settings disk = .ok store)
    (located : disk.locate (settings.tablePath table) = .ok path)
    (room : slotCount settings.pageSize people.rowBytes ≠ 0)
    (short : ∀ id, (Utf8.bytes (name id)).length ≤ textLimit) :
    (peopleLoad settings disk table path name).Ready := by
  have created := createTable_people opened located room
  have blank := (Store.Fresh.opened opened).blank.createTable table people
  rw [created] at blank
  refine ⟨blank, (file_add_empty table _).1, fun k => ?_⟩
  refine Schema.encode_isOk_iff.2 ⟨rfl, fun text member => ?_⟩
  simp only [peopleLoad, person, List.mem_cons, List.not_mem_nil, or_false] at member
  rcases member with same | same
  · cases same
  · cases same
    exact short _

theorem inOrder_rows {n : Nat} (small : n ≤ 2 ^ 31) :
    InOrder (peopleFile settings path).id (slotCount settings.pageSize people.rowBytes) name n
      ((peopleLoad settings disk table path name).rows n) := by
  refine ⟨by simp [Load.rows, Contents.rowList], fun k inside => ⟨Int32.ofInt k, ?_, ?_⟩⟩
  · exact Int32.toInt_ofInt_of_le (by omega) (by omega)
  · simp [Load.rows, Contents.rowList, inside]
    exact ⟨rfl, rfl⟩

theorem readTable_of_scan {s mid : Store} {table : TableId} {rows : List Row} (ok : s.Orderly)
    (scanned : StoreAction.scan s.counter.issue.1 table { s with counter := s.counter.issue.2 } =
      (.ok rows, mid)) : ∃ last, readTable table s = (.ok rows, last) := by
  have started : begin s = (.ok s.counter.issue.1, { s with counter := s.counter.issue.2 }) := rfl
  have begun : Store.Orderly { s with counter := s.counter.issue.2 } :=
    ⟨ok.tables, ok.locks, ok.pool, ok.belongs, ok.owned⟩
  have still := begun.walks (scan_spec begun.pool scanned).1.walk
  obtain ⟨last, ended, -⟩ := Orderly.complete still s.counter.issue.1 true
  refine ⟨last, ?_⟩
  rw [readTable, run_bind (run_attempt started _), run_bind (run_attempt scanned _),
    run_bind (run_attempt (commit_of_complete ended) _)]
  rfl

theorem load_spec (rows : Int32) (opened : Store.openOn settings disk = .ok store)
    (located : disk.locate (settings.tablePath table) = .ok path)
    (room : slotCount settings.pageSize people.rowBytes ≠ 0)
    (frames : 256 ⌈/⌉ slotCount settings.pageSize people.rowBytes + 2 ≤ settings.poolPages)
    (ready : (peopleLoad settings disk table path name).Ready) :
    ∃ ℓ after, load table rows name store = (.ok [], after) ∧
      (peopleLoad settings disk table path name).Loaded ℓ after rows.toInt.toNat := by
  have created := createTable_people opened located room
  have zero : (0 : Int32).toInt = (0 : Nat) := by decide
  have capacity : (peopleLoad settings disk table path name).store.pool.capacity =
      settings.poolPages := Pool.capacity_new _
  obtain ⟨ℓ, after, filled, loaded⟩ :=
    loadFrom_spec (fun _ => rfl) ready (capacity ▸ frames) rows (Load.loaded_zero ready) zero
  rw [Nat.zero_max] at loaded
  have ran : loadFrom (peopleFile settings path).id rows name 0
      (withPeople settings disk table path) = (.ok (), after) := filled
  have registered : after.catalog.file (peopleFile settings path).id =
      .ok (peopleFile settings path) := loaded.registered ready
  have looked : tableFile (peopleFile settings path).id after =
      (.ok (peopleFile settings path), after) := by
    rw [tableFile, query_apply, registered]
    rfl
  refine ⟨ℓ, after, ?_, loaded⟩
  rw [load, run_bind (run_attempt created _), run_bind ran, run_bind (run_attempt looked _)]
  rfl

/-- The next run finds the rows in the file. -/
theorem scan_of_loaded (loaded : (peopleLoad settings disk table path name).Loaded ℓ s n)
    (ready : (peopleLoad settings disk table path name).Ready)
    (located : disk.locate (settings.tablePath table) = .ok path)
    (room : slotCount settings.pageSize people.rowBytes ≠ 0)
    (opened : Store.openOn settings s.disk = .ok store) :
    ∃ last, scan table store =
      (.ok (((peopleLoad settings disk table path name).rows n).map line), last) := by
  have home : s.disk.home = disk.home := loaded.tables.home
  obtain ⟨known, attached, untouched, catalog, capacity, content⟩ :=
    openTable_people opened (Store.locate_of_home home located) room
  obtain ⟨registered, only⟩ := file_add_empty table (peopleFile settings path)
  rw [← catalog] at registered only
  have begun : Store.Untouched { known with counter := known.counter.issue.2 } :=
    ⟨untouched.settings, untouched.tables, untouched.pool, untouched.absent, untouched.locks⟩
  have frames : 0 < known.pool.capacity := by
    have some := ready.blank.frames
    rw [capacity]
    exact Pool.capacity_new settings.poolPages ▸ some
  obtain ⟨mid, scanned⟩ :=
    loaded.scan_again ready begun frames registered only content known.counter.issue.1
  obtain ⟨last, read⟩ := readTable_of_scan untouched.orderly scanned
  refine ⟨last, ?_⟩
  rw [scan, run_bind (run_attempt attached _)]
  exact run_bind read _

/-- **A load** of any number of rows gets through if there are two frames more than the pages
that the rows of one transaction take.  Row `k` lies in slot `k % slots` of page `k / slots`,
and the file has no other pages.  A scan answers the rows in the order of their numbers, and so
does the next run of the program.  A number below zero stands for no rows. -/
theorem load_in_order (rows : Int32) (opened : Store.openOn settings disk = .ok store)
    (located : disk.locate (settings.tablePath table) = .ok path)
    (room : 1 ≤ slotCount settings.pageSize people.rowBytes)
    (frames : 256 ⌈/⌉ slotCount settings.pageSize people.rowBytes + 2 ≤ settings.poolPages)
    (short : ∀ id, (Utf8.bytes (name id)).length ≤ textLimit) :
    ∃ after, load table rows name store = (.ok [], after) ∧
      after.catalog.idOf table = .ok (peopleFile settings path).id ∧
      after.catalog.file (peopleFile settings path).id = .ok (peopleFile settings path) ∧
      after.pageCount (peopleFile settings path) =
        rows.toInt.toNat ⌈/⌉ slotCount settings.pageSize people.rowBytes ∧
      after.wholePages (peopleFile settings path) = after.pageCount (peopleFile settings path) ∧
      ∃ answer, InOrder (peopleFile settings path).id
          (slotCount settings.pageSize people.rowBytes) name rows.toInt.toNat answer ∧
        (∀ txn, ∃ last,
          StoreAction.scan txn (peopleFile settings path).id after = (.ok answer, last)) ∧
        ∃ again last, Store.openOn settings after.disk = .ok again ∧
          scan table again = (.ok (answer.map line), last) := by
  have wide := Nat.ne_of_gt room
  have valid := (Store.openOn_eq_ok_iff.1 opened).1
  have ready := ready_peopleLoad opened located wide short
  obtain ⟨ℓ, after, filled, loaded⟩ := load_spec rows opened located wide frames ready
  have registered := loaded.registered ready
  have counted := loaded.calm.bounded.pageCount_eq registered
  have reopened := Store.openOn_eq_ok_iff.2 ⟨valid, Eq.refl (Store.mk settings after.disk _ _ _ _)⟩
  obtain ⟨last, again⟩ := scan_of_loaded loaded ready located wide reopened
  refine ⟨after, filled, ?_, registered, counted.trans loaded.pages, counted.symm, _,
    inOrder_rows ?_, loaded.scan ready, _, last, reopened, again⟩
  · rw [loaded.tables.catalog, Catalog.idOf_eq_ok_iff]
    show (Catalog.empty.add table _).names.get? table = _
    rw [Catalog.names_add, if_pos rfl]
  · have largest := Int32.toInt_lt rows
    omega

/-- A thousand rows on pages of two, with the names that the program makes up. -/
theorem load_in_order_thousand : ∃ store after,
    Store.openOn ⟨"", 280, 130⟩ (.new "") = .ok store ∧
    load "flags" 1000 (nameFrom 7) store = (.ok [], after) ∧
    after.pageCount (peopleFile ⟨"", 280, 130⟩ "/flags.dat") = 500 := by
  have opened : Store.openOn ⟨"", 280, 130⟩ (.new "") =
      .ok ⟨⟨"", 280, 130⟩, .new "", .empty, .empty, .new 130, .start⟩ := rfl
  have path : Settings.tablePath ⟨"", 280, 130⟩ "flags" = "flags.dat" := by decide +kernel
  have two : slotCount 280 people.rowBytes = 2 := by decide +kernel
  have room : 1 ≤ slotCount 280 people.rowBytes := by rw [two]; decide
  have frames : 256 ⌈/⌉ slotCount 280 people.rowBytes + 2 ≤ 130 := by rw [two]; decide
  obtain ⟨after, ran, -, -, pages, -⟩ := load_in_order 1000 opened (path.symm ▸ locate_flags _)
    room frames (short_nameFrom 7)
  refine ⟨_, after, opened, ran, pages.trans ?_⟩
  rw [two]
  decide +kernel

end

end CommandLine

end RowStore
