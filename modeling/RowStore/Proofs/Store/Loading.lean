/-
# RowStore.Proofs.Store.Loading -- filling an empty table in order

A load inserts rows into an empty table, some in each transaction, and nothing else goes on
meanwhile.  Two invariants take turns.  Between two transactions the rows so far are committed
in their places, and no page has unwritten changes (`Loaded`).  Within one, only pages from
that on where it began have unwritten changes (`Loading`).  While these are fewer than the
frames, however long the file is, each insert finds a frame for every page that it passes
(`Loading.served`), and the row goes into its place (`Loading.insert`).
-/
import RowStore.Proofs.Store.Lone

namespace RowStore

set_option autoImplicit false

open Store Contents

/-- Rows to be inserted into a table of a store, in order. -/
structure Load where
  store : Store
  file : TableFile
  row : Nat → List Value

namespace Load

variable {job : Load} {ℓ : Ledger} {s after : Store} {txn : TxnId} {start n : Nat}

/-- The slots of a page. -/
def slots (job : Load) : Nat := slotCount job.file.pageSize job.file.schema.rowBytes

def place (job : Load) (k : Nat) : RecordId := RowStore.place job.file.id job.slots k

/-- The table with the first `n` rows. -/
def contents (job : Load) (n : Nat) : Contents := firstRows job.file.id job.slots job.row n

/-- The table is there and has no pages yet, and all rows have a stored form. -/
structure Ready (job : Load) : Prop where
  blank : job.store.Blank
  registered : job.store.catalog.file job.file.id = .ok job.file
  fits : ∀ k, ∃ bytes, job.file.schema.encode (job.row k) = .ok bytes

theorem Ready.slots_pos (ready : job.Ready) : 0 < job.slots :=
  Nat.pos_of_ne_zero (ready.blank.tables _ _ ready.registered).2.roomy

/-- The first `n` rows are committed, each in its place. -/
structure Loaded (job : Load) (ℓ : Ledger) (s : Store) (n : Nat) : Prop where
  calm : ℓ.Calm s
  tables : job.store.SameTables s
  capacity : s.pool.capacity = job.store.pool.capacity
  committed : ℓ.committed = job.contents n
  settled : ∀ txn, ℓ.pending txn = []
  pages : s.wholePages job.file = n ⌈/⌉ job.slots

/-- The transaction that inserts the rows from `start` on has come to row `n`. -/
structure Loading (job : Load) (ℓ : Ledger) (s : Store) (txn : TxnId) (start n : Nat) : Prop where
  lone : ℓ.Lone s txn
  tables : job.store.SameTables s
  capacity : s.pool.capacity = job.store.pool.capacity
  sees : ℓ.view txn = job.contents n
  settled : ∀ other, other ≠ txn → ℓ.pending other = []
  pages : s.wholePages job.file = n ⌈/⌉ job.slots
  marked : ∀ id frame, s.pool.resident? id = some frame → frame.page.mark ≠ none →
    id.table = job.file.id ∧ start / job.slots ≤ id.number

theorem loaded_zero (ready : job.Ready) : job.Loaded .empty job.store 0 := by
  refine ⟨ready.blank.calm, .refl _, rfl, firstRows_zero.symm, fun _ => rfl, ?_⟩
  rw [ready.blank.wholePages ready.registered, zero_ceilDiv]

theorem Loaded.registered (loaded : job.Loaded ℓ s n) (ready : job.Ready) :
    s.catalog.file job.file.id = .ok job.file := by
  rw [loaded.tables.catalog, ready.registered]

theorem Loading.registered (loading : job.Loading ℓ s txn start n) (ready : job.Ready) :
    s.catalog.file job.file.id = .ok job.file := by
  rw [loading.tables.catalog, ready.registered]

/-! ## One transaction -/

/-- A transaction begins. -/
theorem Loaded.begin (loaded : job.Loaded ℓ s n) (txn : TxnId) (counter : TxnCounter) :
    job.Loading ℓ { s with counter } txn n n := by
  obtain ⟨⟨ok, agrees, idle, bounded⟩, tables, capacity, committed, settled, pages⟩ := loaded
  have ordered : Orderly { s with counter } := ⟨ok.tables, ok.locks, ok.pool, ok.belongs, ok.owned⟩
  have agreed : ℓ.Agrees { s with counter } :=
    ⟨agrees.within, agrees.clean, agrees.stored, agrees.inside, agrees.changed, agrees.pending⟩
  refine ⟨⟨ordered, agreed, bounded, fun page => ?_⟩, tables.trans ⟨rfl, rfl, rfl⟩, capacity, ?_,
    fun other _ => settled other, pages, fun id frame there changed => ?_⟩
  · show LockTable.others (s.locks.holders page) txn = []
    rw [idle.locks]
    rfl
  · rw [Ledger.view, settled, ← committed]
    rfl
  · exact absurd (idle.clean id frame there) changed

/-- The pages that may have unwritten changes are fewer than the frames. -/
def Roomy (job : Load) (start n : Nat) : Prop :=
  n ⌈/⌉ job.slots - start / job.slots < job.store.pool.capacity

/-- Two frames more than the pages of one batch are enough: the batch may begin in the midst
of a page, and a frame is to spare for a page that is passed over. -/
theorem roomy_of_batch (pos : 0 < job.slots) {batch : Nat} (few : n ≤ start + batch)
    (frames : batch ⌈/⌉ job.slots + 2 ≤ job.store.pool.capacity) : job.Roomy start n := by
  have pages := ceilDiv_le_of_le pos few
  rw [Roomy]
  omega

theorem Loading.served (loading : job.Loading ℓ s txn start n) (ready : job.Ready)
    (roomy : job.Roomy start n) : ℓ.Served s txn := by
  obtain ⟨ok, agrees, bounded, locks⟩ := loading.lone
  let first := start / job.slots
  let busy := (List.range' first (n ⌈/⌉ job.slots - first)).map (PageId.mk job.file.id)
  refine ⟨ok, agrees, ⟨locks, busy, ?_, fun id frame there changed => ?_⟩, bounded⟩
  · rw [List.length_map, List.length_range', loading.capacity]
    exact roomy
  · obtain ⟨own, later⟩ := loading.marked id frame there changed
    have registered : s.catalog.file id.table = .ok job.file := own ▸ loading.registered ready
    have inside := agrees.within id frame job.file there registered
    rw [bounded.pageCount_eq registered, loading.pages] at inside
    refine List.mem_map.2 ⟨id.number, List.mem_range'_1.2 ⟨later, ?_⟩, by rw [← own]⟩
    show id.number < first + (n ⌈/⌉ job.slots - first)
    omega

/-- The pages before the last one are full. -/
theorem Loading.full (loading : job.Loading ℓ s txn start n) {number : Nat}
    (before : number < n / job.slots) : ℓ.Full txn job.file number := by
  intro slot within
  rw [loading.sees]
  exact isSome_firstRows_of_page_lt before within

/-- If the rows fill whole pages, the table is full. -/
theorem Loading.packed (loading : job.Loading ℓ s txn start n) (ready : job.Ready)
    (edge : job.slots ∣ n) : ℓ.Packed s txn job.file := by
  intro number inside
  rw [loading.lone.bounded.pageCount_eq (loading.registered ready), loading.pages,
    ceilDiv_of_dvd ready.slots_pos edge] at inside
  exact loading.full inside

/-- Row `n` finds its page, which is the last one or a new one. -/
theorem Loading.insertRow (loading : job.Loading ℓ s txn start n) (ready : job.Ready)
    (roomy : job.Roomy start n) (room : n / job.slots + 1 < PageFile.pageLimit) :
    ∃ id after, StoreAction.insertRow txn job.file.id (job.row n) s = (.ok id, after) ∧
      id.page = (job.place n).page ∧ ℓ.Inserted txn s after id (job.row n) ∧
      after.wholePages job.file = n / job.slots + 1 := by
  have served := loading.served ready roomy
  have registered := loading.registered ready
  have pos := ready.slots_pos
  obtain ⟨bytes, fits⟩ := ready.fits n
  by_cases edge : job.slots ∣ n
  · have pages : s.wholePages job.file = n / job.slots := by
      rw [loading.pages, ceilDiv_of_dvd pos edge]
    obtain ⟨id, after, run, own, inserted, longer⟩ :=
      served.insert_packed registered (loading.packed ready edge) fits (by rw [pages]; exact room)
    rw [pages] at own longer
    exact ⟨id, after, run, own, inserted, longer⟩
  · have pages : s.wholePages job.file = n / job.slots + 1 := by
      rw [loading.pages, ceilDiv_of_not_dvd pos edge]
    have inside : n / job.slots < s.pageCount job.file := by
      rw [served.bounded.pageCount_eq registered, pages]
      exact Nat.lt_succ_self _
    have free : ℓ.view txn (job.place n) = none := by
      rw [loading.sees]
      exact firstRows_place_eq_none (Nat.le_refl n)
    obtain ⟨id, after, run, own, inserted, same⟩ := served.insert_room registered
      (fun _ before => loading.full before) inside (Nat.mod_lt n pos) free fits
    exact ⟨id, after, run, own, inserted, same.trans pages⟩

/-- **One row more**, in its place. -/
theorem Loading.insert (loading : job.Loading ℓ s txn start n) (ready : job.Ready)
    (begun : start ≤ n) (roomy : job.Roomy start n)
    (room : n / job.slots + 1 < PageFile.pageLimit) :
    ∃ after, StoreAction.insertRow txn job.file.id (job.row n) s = (.ok (job.place n), after) ∧
      job.Loading (ℓ.note txn (.insert (job.place n) (job.row n))) after txn start (n + 1) := by
  obtain ⟨id, after, run, own, inserted, longer⟩ := loading.insertRow ready roomy room
  obtain ⟨-, tables, capacity, sees, settled, -, marked⟩ := loading
  -- The lowest free slot of the page is the place of the row.
  have lowest := inserted.lowest
  rw [sees] at lowest
  have placed : id = job.place n := lowest.unique (lowestFree_place ready.slots_pos) own
  subst placed
  refine ⟨after, run, inserted.lone, tables.trans inserted.tables, inserted.capacity.trans capacity,
    ?_, fun other apart => ?_, ?_, fun page frame there changed => ?_⟩
  · rw [Ledger.view_note, sees]
    exact firstRows_succ
  · exact (if_neg apart).trans (settled other apart)
  · rw [longer, ceilDiv_succ ready.slots_pos]
  · rcases inserted.marked page frame there changed with rfl | before
    · exact ⟨rfl, Nat.div_le_div_right begun⟩
    · exact marked page frame before changed

/-- The transaction commits. -/
theorem Loading.commit (loading : job.Loading ℓ s txn start n) (ready : job.Ready) :
    ∃ after, StoreAction.complete txn true s = (.ok (), after) ∧
      job.Loaded (ℓ.finish txn true) after n := by
  have registered := loading.registered ready
  obtain ⟨lone, tables, capacity, sees, settled, pages, -⟩ := loading
  obtain ⟨after, ended, committed⟩ := lone.commit
  refine ⟨after, ended, committed.calm, tables.trans committed.tables,
    committed.capacity.trans capacity, sees, fun other => ?_, ?_⟩
  · by_cases own : other = txn
    · exact if_pos own
    · exact (if_neg own).trans (settled other own)
  · rw [committed.pages _ _ registered, pages]

/-! ## What a scan answers -/

/-- The first `n` rows, each with its place. -/
def rows (job : Load) (n : Nat) : List Row := rowList job.file.id job.slots job.row n

end Load

namespace Ledger

/-- What is committed lies in the files, for any store over them that knows their tables. -/
theorem Calm.reopened {ℓ : Ledger} {s again : Store} (calm : ℓ.Calm s) (untouched : again.Untouched)
    (files : ∀ table file, again.catalog.file table = .ok file →
      s.catalog.file table = .ok file ∧ again.disk.content file.path = s.disk.content file.path)
    (known : ∀ id values, ℓ.committed id = some values →
      ∃ file, again.catalog.file id.page.table = .ok file) :
    (⟨ℓ.committed, fun _ => []⟩ : Ledger).Calm again := by
  obtain ⟨-, agrees, -, bounded⟩ := calm
  have absent : ∀ id frame, again.pool.resident? id ≠ some frame := by
    intro id frame there
    rw [untouched.absent] at there
    cases there
  refine ⟨untouched.orderly, ⟨fun id frame file there => absurd there (absent id frame),
    fun id frame file there => absurd there (absent id frame), fun id file found inside => ?_,
    fun id values committed => ?_, fun id frame txn there => absurd there (absent id frame),
    fun txn e member => by cases member⟩,
    ⟨untouched.locks, fun id frame there => absurd there (absent id frame)⟩,
    fun table file found => ?_⟩
  · obtain ⟨registered, content⟩ := files _ file found
    obtain ⟨-, count, read⟩ := views_of_content content
    rw [count] at inside
    rw [read]
    exact agrees.stored id file registered inside
  · obtain ⟨file, found⟩ := known id values committed
    obtain ⟨held, listed, inside⟩ := agrees.inside id values committed
    obtain ⟨registered, content⟩ := files _ file found
    have same : held = file := Except.ok.inj (listed.symm.trans registered)
    subst same
    rw [← (views_of_content content).2.1] at inside
    exact ⟨held, found, inside⟩
  · obtain ⟨registered, content⟩ := files _ file found
    rw [(views_of_content content).1]
    exact bounded table file registered

/-- In a calm store a table that has the first rows in their places is scanned in their
order. -/
theorem Calm.scan_firstRows {ℓ : Ledger} {s : Store} {file : TableFile} {slots n : Nat}
    {row : Nat → List Value} (calm : ℓ.Calm s) (frames : 0 < s.pool.capacity)
    (registered : s.catalog.file file.id = .ok file) (txn : TxnId)
    (sees : ℓ.view txn = firstRows file.id slots row n) :
    ∃ after, StoreAction.scan txn file.id s = (.ok (rowList file.id slots row n), after) := by
  obtain ⟨rows, after, scanned⟩ := (calm.served frames txn).scan_isOk registered
  have listing := calm.agrees.scan calm.orderly scanned calm.bounded
  rw [sees] at listing
  rw [listing.unique listing_rowList] at scanned
  exact ⟨after, scanned⟩

end Ledger

namespace Load

variable {job : Load} {ℓ : Ledger} {s : Store} {n : Nat}

theorem Loaded.scan (loaded : job.Loaded ℓ s n) (ready : job.Ready) (txn : TxnId) :
    ∃ after, StoreAction.scan txn job.file.id s = (.ok (job.rows n), after) := by
  have frames : 0 < s.pool.capacity := by
    rw [loaded.capacity]
    exact ready.blank.frames
  refine loaded.calm.scan_firstRows frames (loaded.registered ready) txn ?_
  rw [Ledger.view, loaded.settled]
  exact loaded.committed

/-- **The rows are on disk**: a store that knows the table and no other one, and has no page
of it yet, finds them in the file. -/
theorem Loaded.scan_again (loaded : job.Loaded ℓ s n) (ready : job.Ready) {again : Store}
    (untouched : again.Untouched) (frames : 0 < again.pool.capacity)
    (registered : again.catalog.file job.file.id = .ok job.file)
    (only : ∀ table file, again.catalog.file table = .ok file →
      table = job.file.id ∧ file = job.file)
    (content : again.disk.content job.file.path = s.disk.content job.file.path) (txn : TxnId) :
    ∃ after, StoreAction.scan txn job.file.id again = (.ok (job.rows n), after) := by
  have calm := loaded.calm.reopened untouched
    (fun table file found => by
      obtain ⟨rfl, rfl⟩ := only table file found
      exact ⟨loaded.registered ready, content⟩)
    (fun id values committed => by
      rw [loaded.committed] at committed
      obtain ⟨k, -, rfl, -⟩ := firstRows_eq_some_iff.1 committed
      exact ⟨_, registered⟩)
  exact calm.scan_firstRows frames registered txn loaded.committed

end Load

end RowStore
