/-
# RowStore.Proofs.Store.Alone -- a transaction that is alone gets what it asks for

While no other transaction has a lock and there are more frames than pages with unwritten
changes, every request is granted and there is a frame for every page (`Unhindered`).  Then
each page that the count of pages admits can be read, with the rows on it that the
transaction should see (`Served.readPage`).

So a scan gets through (`Served.scan_isOk`), and what an insert does depends on the table
only.  If the first page with a free slot is one of those that are counted, the row is stored
there and no file gets longer (`Served.insertRow_room`).  If all pages are full the file grows
by exactly one page, and the row is stored there if the new page can still be counted
(`Served.insertRow_packed`).  If it cannot, the insert fails and the page stays
(`Served.insertRow_overrun`).
-/
import RowStore.Proofs.Store.Agreement

namespace RowStore

set_option autoImplicit false

open Store StoreAction RowStore.Action

variable {txn : TxnId} {s after : Store} {ℓ : Ledger}

namespace Store

/-! ## Who is in the way -/

/-- Requests of a transaction give no other one a lock. -/
theorem others_of_walks (walk : s.Walks txn after) (page : PageId) :
    LockTable.others (after.locks.holders page) txn =
      LockTable.others (s.locks.holders page) txn := by
  induction walk with
  | refl => rfl
  | tail _ move ih =>
      cases move with
      | request r => exact (LockTable.others_request _ txn r page).trans ih
      | turn => exact ih
      | grow => exact ih

/-- A page that has unwritten changes after a walk had them before. -/
theorem resident_of_walks (walk : s.Walks txn after) {id : PageId} {frame : Frame}
    (there : after.pool.resident? id = some frame) (marked : frame.page.mark ≠ none) :
    s.pool.resident? id = some frame := by
  induction walk with
  | refl => exact there
  | tail _ move ih =>
      cases move with
      | request => exact ih there
      | grow => exact ih there
      | turn _ _ each =>
          rcases each id with same | ⟨gone, -, -⟩ | ⟨-, -, -, read, now⟩
          · exact ih (same ▸ there)
          · simp only [gone] at there
            cases there
          · simp only [now] at there
            cases there
            rw [(readFromDisk_eq_ok_iff.1 read).2.2.1] at marked
            exact absurd rfl marked

/-- No lock is held, and no resident page has unwritten changes. -/
structure Idle (s : Store) : Prop where
  locks : ∀ page, s.locks.holders page = []
  clean : ∀ id frame, s.pool.resident? id = some frame → frame.page.mark = none

/-- No other transaction has a lock, and there are more frames than resident pages with
unwritten changes. -/
structure Unhindered (s : Store) (txn : TxnId) : Prop where
  locks : ∀ page, LockTable.others (s.locks.holders page) txn = []
  room : ∃ busy : List PageId, busy.length < s.pool.capacity ∧
    ∀ id frame, s.pool.resident? id = some frame → frame.page.mark ≠ none → id ∈ busy

theorem Idle.clean_of_walks (idle : s.Idle) (walk : s.Walks txn after) {id : PageId}
    {frame : Frame} (there : after.pool.resident? id = some frame) : frame.page.mark = none := by
  by_contra marked
  exact marked (idle.clean id frame (resident_of_walks walk there marked))

theorem Idle.unhindered (idle : s.Idle) (frames : 0 < s.pool.capacity) (txn : TxnId) :
    s.Unhindered txn := by
  refine ⟨fun page => ?_, [], frames, fun id frame there marked => ?_⟩
  · rw [idle.locks]
    rfl
  · exact absurd (idle.clean id frame there) marked

theorem Unhindered.walks (unhindered : s.Unhindered txn) (walk : s.Walks txn after) :
    after.Unhindered txn := by
  obtain ⟨locks, busy, few, listed⟩ := unhindered
  refine ⟨fun page => (others_of_walks walk page).trans (locks page), busy, ?_,
    fun id frame there marked => listed id frame (resident_of_walks walk there marked) marked⟩
  rw [Walks.capacity walk]
  exact few

end Store

namespace StoreAction

/-! ## Locks and frames -/

theorem acquire_isOk (unhindered : s.Unhindered txn) (r : LockRequest) :
    ∃ after, acquire txn r s = (.ok (), after) := by
  have free : s.locks.blockers txn r = [] := by
    refine List.eq_nil_iff_forall_not_mem.2 fun other member => ?_
    obtain ⟨l, there, -, apart, -⟩ := (s.locks.mem_blockers txn).1 member
    have foreign := LockTable.mem_others.2 ⟨there, apart⟩
    rw [unhindered.locks] at foreign
    cases foreign
  have granted : (s.locks.request txn r).1 = .granted := by
    rcases s.locks.request_cases txn r with ⟨-, same⟩ | ⟨-, ⟨-, same⟩ | ⟨blocked, -⟩⟩
    · rw [same]
    · rw [same]
    · exact absurd free blocked
  unfold acquire
  simp only [bind_apply, get_apply, set_apply]
  generalize s.locks.request txn r = outcome at granted ⊢
  obtain ⟨verdict, locks⟩ := outcome
  subst granted
  exact ⟨_, rfl⟩

theorem fetch_isOk (ok : s.pool.Consistent) (unhindered : s.Unhindered txn) {id : PageId}
    {file : TableFile} {page : Page} (registered : s.catalog.file id.table = .ok file)
    (read : s.readFromDisk file id = .ok page) :
    ∃ frame after, fetch id s = (.ok frame, after) := by
  unfold fetch
  rw [bind_apply, lookup_apply]
  cases s.pool.resident? id with
  | some frame => exact ⟨frame, _, rfl⟩
  | none =>
      obtain ⟨-, busy, few, listed⟩ := unhindered
      have dirty : ∀ other frame, (s.pool.lookup id).2.resident? other = some frame →
          frame.page.isDirty = true → other ∈ busy := by
        intro other frame there changed
        rw [Pool.resident?_lookup] at there
        refine listed other frame there fun unmarked => ?_
        rw [Page.isDirty, unmarked] at changed
        cases changed
      obtain ⟨frame, pool, brought⟩ :=
        (ok.lookup id).bring_isOk (Pool.capacity_lookup s.pool id ▸ few) dirty page
      have again : Store.readFromDisk { s with pool := (s.pool.lookup id).2 } file id =
          .ok page := read
      refine ⟨frame, { s with pool }, ?_⟩
      simp only [tableFile, bind_apply, query_apply, registered, again, Except.mapError]
      unfold bring
      simp only [bind_apply, get_apply, ofExcept_apply, brought]
      rfl

theorem readPage_isOk (ok : s.pool.Consistent) (unhindered : s.Unhindered txn) {id : PageId}
    {file : TableFile} {page : Page} (registered : s.catalog.file id.table = .ok file)
    (read : s.readFromDisk file id = .ok page) (mode : LockMode) :
    ∃ frame after, readPage txn id mode s = (.ok frame, after) := by
  obtain ⟨mid, acquired⟩ := acquire_isOk unhindered ⟨id, mode⟩
  obtain ⟨⟨walk, disk⟩, -, -⟩ := acquire_spec acquired
  have catalog := (Walks.grows walk).catalog
  have listed : mid.catalog.file id.table = .ok file := by rw [catalog, registered]
  have still : mid.readFromDisk file id = .ok page := by
    rw [(views_congr disk file).2.2, read]
  unfold readPage
  rw [bind_apply, acquired]
  exact fetch_isOk (walk.consistent ok) (unhindered.walks walk) listed still

/-- A page that is neither resident nor counted cannot be read, and the attempt drops no
page. -/
theorem readPage_missing (txn : TxnId) (id : PageId) {file : TableFile} (mode : LockMode)
    (registered : s.catalog.file id.table = .ok file) (own : id.table = file.id)
    (absent : s.pool.resident? id = none) (past : s.pageCount file ≤ id.number) :
    ∃ stop after, readPage txn id mode s = (.error stop, after) ∧
      ∀ other, after.pool.resident? other = s.pool.resident? other := by
  unfold readPage
  rw [bind_apply]
  rcases acquired : acquire txn ⟨id, mode⟩ s with ⟨stop | ⟨⟨⟩⟩, mid⟩
  · obtain ⟨-, pool, -⟩ := acquire_spec acquired
    exact ⟨stop, mid, rfl, fun other => by rw [pool]⟩
  · obtain ⟨⟨walk, disk⟩, pool, -⟩ := acquire_spec acquired
    have listed : mid.catalog.file id.table = .ok file := by
      rw [(Walks.grows walk).catalog, registered]
    have missing : mid.readFromDisk file id = .error (.pageNotFound id) := by
      unfold Store.readFromDisk TableFile.checkOwner
      rw [if_pos own, (views_congr disk file).2.1]
      exact if_pos past
    have again : Store.readFromDisk { mid with pool := (mid.pool.lookup id).2 } file id =
        .error (.pageNotFound id) := missing
    refine ⟨.fault (.pageNotFound id), { mid with pool := (mid.pool.lookup id).2 }, ?_, ?_⟩
    · unfold fetch
      simp only [bind_apply, lookup_apply, pool, absent, tableFile, query_apply, listed]
      rw [pool] at again
      simp only [Except.mapError, again]
    · intro other
      show (mid.pool.lookup id).2.resident? other = _
      rw [Pool.resident?_lookup, pool]

/-! ## Trying a page -/

theorem insertIfRoom_full (txn : TxnId) {page : Page} (full : page.freeCount = 0)
    (values : List Value) :
    insertIfRoom txn values page = (.ok none, page) := by
  rw [insertIfRoom_apply, if_pos full]

theorem insertIfRoom_isOk (txn : TxnId) {page stored : Page} {values : List Value}
    {id : RecordId} (free : page.freeCount ≠ 0) (done : page.insert values = .ok (id, stored)) :
    insertIfRoom txn values page = (.ok (some id), stored.withMark (some txn)) := by
  rw [insertIfRoom_apply, if_neg free, done]

end StoreAction

namespace Ledger

/-! ## Reading

All that is asked of a store in which nothing is in the way of a transaction, and what a
read gives it there. -/

structure Served (ℓ : Ledger) (s : Store) (txn : TxnId) : Prop where
  orderly : s.Orderly
  agrees : ℓ.Agrees s
  unhindered : s.Unhindered txn
  bounded : s.Bounded

/-- A store in which every transaction is served. -/
structure Calm (ℓ : Ledger) (s : Store) : Prop where
  orderly : s.Orderly
  agrees : ℓ.Agrees s
  idle : s.Idle
  bounded : s.Bounded

theorem Calm.served (calm : ℓ.Calm s) (frames : 0 < s.pool.capacity) (txn : TxnId) :
    ℓ.Served s txn :=
  ⟨calm.orderly, calm.agrees, calm.idle.unhindered frames txn, calm.bounded⟩

theorem Served.grow (served : ℓ.Served s txn) {table : TableId} {file : TableFile}
    (registered : s.catalog.file table = .ok file) (bounded : (s.grown file).Bounded) :
    ℓ.Served (s.grown file) txn :=
  ⟨served.orderly.grow file, served.agrees.grow served.orderly registered bounded,
    ⟨served.unhindered.locks, served.unhindered.room⟩, bounded⟩

theorem Served.reads (served : ℓ.Served s txn) (reads : s.Reads txn after) : ℓ.Served after txn :=
  have bounded := reads.bounded served.bounded
  ⟨served.orderly.walks reads.walk, served.agrees.walks served.orderly reads.walk bounded,
    served.unhindered.walks reads.walk, bounded⟩

/-- **Every page that is counted** can be read, and has the rows that the transaction
should see. -/
theorem Served.readPage (served : ℓ.Served s txn) (id : PageId) {file : TableFile}
    (registered : s.catalog.file id.table = .ok file) (inside : id.number < s.pageCount file)
    (mode : LockMode) : ∃ frame mid, StoreAction.readPage txn id mode s = (.ok frame, mid) ∧
      s.Reads txn mid ∧ frame.page.schema = file.schema ∧
      frame.page.slots = slotCount file.pageSize file.schema.rowBytes ∧ frame.page.Sound ∧
      ∀ slot, frame.page.at? slot = ℓ.view txn ⟨id, slot⟩ := by
  obtain ⟨page, stored, -⟩ := served.agrees.stored id file registered inside
  obtain ⟨frame, mid, read⟩ :=
    readPage_isOk served.orderly.pool served.unhindered registered stored mode
  obtain ⟨reads, found⟩ := readPage_spec served.orderly.pool read
  obtain ⟨there, held, holds, -⟩ := found frame rfl
  have still := served.reads reads
  obtain ⟨other, listed, schema, size, sound⟩ := still.orderly.belongs id frame there
  have same : other = file := by
    rw [(Walks.grows reads.walk).catalog, registered] at listed
    exact (Except.ok.inj listed).symm
  subst same
  refine ⟨frame, mid, read, reads, schema, ?_, sound, fun slot => ?_⟩
  · rw [Page.slots, size, schema]
  · exact still.agrees.seen still.orderly there ⟨held, holds⟩ slot

/-- The pages that are counted can be scanned. -/
theorem Served.scanPages_isOk (served : ℓ.Served s txn) {file : TableFile}
    (registered : s.catalog.file file.id = .ok file) {pages : List Nat}
    (inside : ∀ number ∈ pages, number < s.pageCount file) :
    ∃ rows after, scanPages file txn pages s = (.ok rows, after) := by
  induction pages generalizing s with
  | nil => exact ⟨[], s, rfl⟩
  | cons number rest ih =>
      obtain ⟨frame, next, read, reads, -, -, sound, -⟩ :=
        served.readPage ⟨file.id, number⟩ registered (inside number List.mem_cons_self) .shared
      obtain ⟨-, count, -⟩ := views_congr reads.disk file
      have listed : next.catalog.file file.id = .ok file := by
        rw [(Walks.grows reads.walk).catalog, registered]
      obtain ⟨back, after, later⟩ := ih (served.reads reads) listed
        (by rw [count]; exact fun n member => inside n (List.mem_cons_of_mem _ member))
      obtain ⟨front, rows⟩ : ∃ front, frame.page.rows = .ok front := ⟨_, sound.rows_eq⟩
      refine ⟨front ++ back, after, ?_⟩
      rw [scanPages, bind_apply, read]
      simp only
      rw [bind_apply, ofExcept_apply, rows]
      simp only [Except.mapError]
      rw [bind_apply, later]
      rfl

theorem Served.scan_isOk (served : ℓ.Served s txn) {file : TableFile}
    (registered : s.catalog.file file.id = .ok file) :
    ∃ rows after, scan txn file.id s = (.ok rows, after) := by
  obtain ⟨rows, after, scanned⟩ :=
    served.scanPages_isOk registered fun number member => List.mem_range.1 member
  refine ⟨rows, after, ?_⟩
  unfold scan
  simp only [tableFile, bind_apply, query_apply, registered, Except.mapError, get_apply]
  exact scanned

/-! ## Trying a page that is counted -/

section

variable {file : TableFile} {values : List Value} {bytes : List UInt8}

/-- The transaction sees a row in every slot of the page. -/
def Full (ℓ : Ledger) (txn : TxnId) (file : TableFile) (number : Nat) : Prop :=
  ∀ slot, slot < slotCount file.pageSize file.schema.rowBytes →
    (ℓ.view txn ⟨⟨file.id, number⟩, slot⟩).isSome = true

/-- A full page is passed over, and stays resident. -/
theorem Served.changePage_full (served : ℓ.Served s txn)
    (registered : s.catalog.file file.id = .ok file) {number : Nat}
    (inside : number < s.pageCount file) (full : ℓ.Full txn file number) (values : List Value) :
    ∃ frame after,
      changePage txn ⟨file.id, number⟩ (insertIfRoom txn values) s = (.ok (none, frame), after) ∧
        s.Reads txn after ∧ ∃ held, after.pool.resident? ⟨file.id, number⟩ = some held := by
  obtain ⟨frame, mid, read, reads, -, slots, sound, contents⟩ :=
    served.readPage ⟨file.id, number⟩ registered inside .exclusive
  have taken : frame.page.freeCount = 0 := by
    rw [Page.freeCount_eq_zero_iff, slots]
    intro slot within
    rw [← sound.isSome_at?, contents]
    exact full slot within
  have tried := insertIfRoom_full txn taken values
  obtain ⟨after, ran, own, there, -, replaces⟩ :=
    changePage_of_read served.orderly.pool (insertIfRoom_id txn values) read
  rw [tried] at ran replaces
  refine ⟨frame, after, ran, reads.trans (replaces.reads there), frame, ?_⟩
  rw [replaces.residents, if_pos own.symm]

/-- A page with a free slot takes the row. -/
theorem Served.changePage_room (served : ℓ.Served s txn)
    (registered : s.catalog.file file.id = .ok file) {number slot : Nat}
    (inside : number < s.pageCount file)
    (within : slot < slotCount file.pageSize file.schema.rowBytes)
    (free : ℓ.view txn ⟨⟨file.id, number⟩, slot⟩ = none)
    (fits : file.schema.encode values = .ok bytes) :
    ∃ id changed after, changePage txn ⟨file.id, number⟩ (insertIfRoom txn values) s =
        (.ok (some id, changed), after) ∧ id.page = ⟨file.id, number⟩ ∧ after.pool.Consistent ∧
      after.pool.resident? changed.id = some changed ∧ changed.page.mark = some txn ∧
      after.disk = s.disk := by
  obtain ⟨frame, start, read, reads, schema, slots, sound, contents⟩ :=
    served.readPage ⟨file.id, number⟩ registered inside .exclusive
  have spare : frame.page.freeCount ≠ 0 := by
    intro full
    have used := Page.freeCount_eq_zero_iff.1 full slot (slots ▸ within)
    rw [← sound.isSome_at?, contents, free] at used
    cases used
  obtain ⟨id, stored, done⟩ := Page.insert_isOk (schema ▸ fits) spare
  have tried := insertIfRoom_isOk txn spare done
  obtain ⟨after, changed, own, there, -, replaces⟩ :=
    changePage_of_read served.orderly.pool (insertIfRoom_id txn values) read
  rw [tried] at changed replaces
  have named : frame.page.id = ⟨file.id, number⟩ := by
    have found := ((readPage_spec served.orderly.pool read).2 frame rfl).1
    exact ((reads.walk.consistent served.orderly.pool).resident?_id found).2
  refine ⟨id, { frame with page := stored.withMark (some txn) }, after, changed, ?_,
    replaces.consistent, ?_, rfl, ?_⟩
  · rw [(sound.insert done).1, named]
  · exact (replaces.residents frame.id).trans (if_pos rfl)
  · obtain ⟨pool, rfl⟩ := replaces.store
    exact reads.disk

/-! ## Passing over full pages -/

/-- Full pages are passed over, and nothing is written on the way.  The last of them stays
resident. -/
theorem Served.insertOnPages_full (served : ℓ.Served s txn)
    (registered : s.catalog.file file.id = .ok file) (values : List Value) {pages : List Nat}
    (full : ∀ n ∈ pages, n < s.pageCount file ∧ ℓ.Full txn file n) :
    ∃ after, insertOnPages file txn values pages s = (.ok none, after) ∧ s.Reads txn after ∧
      ∀ number, pages.getLast? = some number →
        ∃ frame, after.pool.resident? ⟨file.id, number⟩ = some frame := by
  induction pages generalizing s with
  | nil => exact ⟨s, rfl, .refl _ _, fun _ last => by cases last⟩
  | cons number rest ih =>
      obtain ⟨inside, taken⟩ := full number List.mem_cons_self
      obtain ⟨frame, next, tried, passed, there⟩ :=
        served.changePage_full registered inside taken values
      obtain ⟨-, count, -⟩ := views_congr passed.disk file
      have listed : next.catalog.file file.id = .ok file := by
        rw [(Walks.grows passed.walk).catalog, registered]
      obtain ⟨after, later, more, final⟩ := ih (served.reads passed) listed
        (by rw [count]; exact fun n member => full n (List.mem_cons_of_mem _ member))
      refine ⟨after, ?_, passed.trans more, fun n last => ?_⟩
      · rw [insertOnPages, bind_apply, tried]
        exact later
      · cases rest with
        | nil =>
            cases last
            cases later
            exact there
        | cons next others => exact final n (by simpa using last)

/-- The first page with a free slot takes the row. -/
theorem Served.insertOnPages_room (served : ℓ.Served s txn)
    (registered : s.catalog.file file.id = .ok file) {pages later : List Nat} {number slot : Nat}
    (full : ∀ n ∈ pages, n < s.pageCount file ∧ ℓ.Full txn file n)
    (inside : number < s.pageCount file)
    (within : slot < slotCount file.pageSize file.schema.rowBytes)
    (free : ℓ.view txn ⟨⟨file.id, number⟩, slot⟩ = none)
    (fits : file.schema.encode values = .ok bytes) :
    ∃ id changed after, insertOnPages file txn values (pages ++ number :: later) s =
        (.ok (some (id, changed)), after) ∧ id.page = ⟨file.id, number⟩ ∧
      after.pool.Consistent ∧ after.pool.resident? changed.id = some changed ∧
      changed.page.mark = some txn ∧ after.disk = s.disk := by
  induction pages generalizing s with
  | nil =>
      obtain ⟨id, changed, after, tried, rest⟩ :=
        served.changePage_room registered inside within free fits
      refine ⟨id, changed, after, ?_, rest⟩
      rw [List.nil_append, insertOnPages, bind_apply, tried]
      rfl
  | cons first others ih =>
      obtain ⟨before, taken⟩ := full first List.mem_cons_self
      obtain ⟨frame, next, tried, passed, -⟩ :=
        served.changePage_full registered before taken values
      obtain ⟨-, count, -⟩ := views_congr passed.disk file
      have listed : next.catalog.file file.id = .ok file := by
        rw [(Walks.grows passed.walk).catalog, registered]
      obtain ⟨id, changed, after, stored, own, consistent, there, mark, disk⟩ :=
        ih (served.reads passed) listed
          (by rw [count]; exact fun n member => full n (List.mem_cons_of_mem _ member))
          (by rw [count]; exact inside)
      refine ⟨id, changed, after, ?_, own, consistent, there, mark, disk.trans passed.disk⟩
      rw [List.cons_append, insertOnPages, bind_apply, tried]
      exact stored

/-! ## Inserting -/

/-- An insert on the pages there are, as a whole call. -/
theorem insertRow_of_stored {id : RecordId} {changed : Frame} {mid : Store}
    (registered : s.catalog.file file.id = .ok file)
    (inserted : insertInFile file txn values s = (.ok (id, changed), mid))
    (consistent : mid.pool.Consistent) (there : mid.pool.resident? changed.id = some changed)
    (mark : changed.page.mark = some txn) :
    ∃ after, insertRow txn file.id values s = (.ok id, after) ∧ after.disk = mid.disk := by
  obtain ⟨pool, marked, -⟩ := markChanged_spec changed consistent there mark
  refine ⟨{ mid with pool }, ?_, rfl⟩
  unfold insertRow
  simp only [tableFile, bind_apply, query_apply, registered, Except.mapError, inserted, marked]
  rfl

/-- **An insert into a table with room** stores the row on the first page that is not full.
No file gets longer. -/
theorem Served.insertRow_room (served : ℓ.Served s txn)
    (registered : s.catalog.file file.id = .ok file) {number slot : Nat}
    (full : ∀ n, n < number → ℓ.Full txn file n) (inside : number < s.pageCount file)
    (within : slot < slotCount file.pageSize file.schema.rowBytes)
    (free : ℓ.view txn ⟨⟨file.id, number⟩, slot⟩ = none)
    (fits : file.schema.encode values = .ok bytes) :
    ∃ id after, insertRow txn file.id values s = (.ok id, after) ∧
      id.page = ⟨file.id, number⟩ ∧ after.disk = s.disk := by
  have pages : List.range (s.pageCount file) = List.range number ++
      number :: List.range' (number + 1) (s.pageCount file - (number + 1)) := by
    have split : s.pageCount file = number + (s.pageCount file - (number + 1) + 1) := by omega
    rw [← List.range'_succ, List.range_eq_range', List.range_eq_range']
    conv_lhs => rw [split, ← List.range'_append_1, Nat.zero_add]
  obtain ⟨id, changed, mid, stored, own, consistent, there, mark, disk⟩ :=
    served.insertOnPages_room registered
      (fun n member => ⟨Nat.lt_trans (List.mem_range.1 member) inside,
        full n (List.mem_range.1 member)⟩) inside within free fits
  have inserted : insertInFile file txn values s = (.ok (id, changed), mid) := by
    unfold insertInFile
    rw [bind_apply, ofExcept_apply, (Schema.encode_eq_ok_iff.1 fits).1]
    simp only [Except.mapError]
    rw [bind_apply, get_apply]
    simp only
    rw [pages, bind_apply, stored]
    rfl
  obtain ⟨after, ran, same⟩ := insertRow_of_stored registered inserted consistent there mark
  exact ⟨id, after, ran, own, same.trans disk⟩

/-! ## A file that is full -/

/-- The transaction sees a row in every slot of every page. -/
def Packed (ℓ : Ledger) (s : Store) (txn : TxnId) (file : TableFile) : Prop :=
  ∀ number, number < s.pageCount file → ℓ.Full txn file number

/-- The insert passes over all pages and tries one that it appends. -/
theorem Served.insertInFile_packed (served : ℓ.Served s txn)
    (registered : s.catalog.file file.id = .ok file) (packed : ℓ.Packed s txn file)
    (fits : file.schema.encode values = .ok bytes) :
    ∃ mid attempts, s.Reads txn mid ∧
      (∀ number, number + 1 = s.pageCount file →
        ∃ frame, mid.pool.resident? ⟨file.id, number⟩ = some frame) ∧
      insertInFile file txn values s =
        (changePage txn ⟨file.id, mid.pageCount file⟩ (insertIfRoom txn values) >>= fun tried =>
          match tried with
          | (some id, frame) => return (id, frame)
          | (none, _) => insertOnNewPage file txn values attempts) (mid.grown file) := by
  obtain ⟨mid, passed, reads, final⟩ := served.insertOnPages_full registered values
    fun number member => ⟨List.mem_range.1 member, packed number (List.mem_range.1 member)⟩
  refine ⟨mid, mid.pool.capacity, reads, fun number last => ?_, ?_⟩
  · apply final number
    rw [← last, List.range_succ, List.getLast?_concat]
  unfold insertInFile
  rw [bind_apply, ofExcept_apply, (Schema.encode_eq_ok_iff.1 fits).1]
  simp only [Except.mapError]
  rw [bind_apply, get_apply]
  simp only
  rw [bind_apply, passed]
  simp only
  rw [bind_apply, get_apply]
  simp only
  have appended := appendPage_apply file mid
  rw [insertOnNewPage, bind_apply]
  generalize appendPage file mid = result at appended ⊢
  subst appended
  rfl

/-- **An insert into a full table** appends one page and stores the row there. -/
theorem Served.insertRow_packed (served : ℓ.Served s txn)
    (registered : s.catalog.file file.id = .ok file) (packed : ℓ.Packed s txn file)
    (fits : file.schema.encode values = .ok bytes)
    (room : s.wholePages file + 1 < PageFile.pageLimit) :
    ∃ id after, insertRow txn file.id values s = (.ok id, after) ∧
      id.page = ⟨file.id, s.pageCount file⟩ ∧ after.disk = (s.grown file).disk := by
  obtain ⟨mid, attempts, reads, -, ran⟩ := served.insertInFile_packed registered packed fits
  obtain ⟨whole, count, -⟩ := views_congr reads.disk file
  have still := served.reads reads
  have listed : mid.catalog.file file.id = .ok file := by
    rw [(Walks.grows reads.walk).catalog, registered]
  have bounded :=
    bounded_grown still.orderly.tables listed still.bounded (by rw [whole]; exact room)
  have counted : mid.pageCount file < (mid.grown file).pageCount file := by
    rw [(pageCount_grown still.orderly.tables listed bounded).1]
    exact Nat.lt_succ_self _
  -- Nothing that the transaction sees lies outside the pages counted before.
  have free : ℓ.view txn ⟨⟨file.id, mid.pageCount file⟩, 0⟩ = none := by
    cases seen : ℓ.view txn ⟨⟨file.id, mid.pageCount file⟩, 0⟩ with
    | none => rfl
    | some row =>
        obtain ⟨held, again, within⟩ := still.agrees.view_inside still.orderly seen
        have same : held = file := Except.ok.inj (again.symm.trans listed)
        rw [same] at within
        exact absurd within (Nat.lt_irrefl _)
  have roomy := (still.orderly.tables _ file listed).2.roomy
  obtain ⟨id, changed, last, tried, own, consistent, there, mark, disk⟩ :=
    (still.grow listed bounded).changePage_room listed counted (Nat.pos_of_ne_zero roomy) free fits
  have inserted : insertInFile file txn values s = (.ok (id, changed), last) := by
    rw [ran, bind_apply, tried]
    rfl
  obtain ⟨after, ran, same⟩ := insertRow_of_stored registered inserted consistent there mark
  refine ⟨id, after, ran, by rw [own, count], ?_⟩
  exact same.trans (disk.trans (disk_grown_congr reads.disk file))

/-- **The page too many.**  An insert into a full table whose pages can just be counted
fails, and leaves a page behind.  The last page that it tried stays resident. -/
theorem Served.insertRow_overrun (served : ℓ.Served s txn)
    (registered : s.catalog.file file.id = .ok file) (packed : ℓ.Packed s txn file)
    (fits : file.schema.encode values = .ok bytes)
    (last : s.wholePages file + 1 = PageFile.pageLimit) :
    ∃ stop after, insertRow txn file.id values s = (.error stop, after) ∧
      after.disk = (s.grown file).disk ∧ ∀ number, number + 1 = s.pageCount file →
        ∃ frame, after.pool.resident? ⟨file.id, number⟩ = some frame := by
  obtain ⟨mid, attempts, reads, final, ran⟩ := served.insertInFile_packed registered packed fits
  obtain ⟨whole, -, -⟩ := views_congr reads.disk file
  have still := served.reads reads
  have listed : mid.catalog.file file.id = .ok file := by
    rw [(Walks.grows reads.walk).catalog, registered]
  have wrapped : (mid.grown file).pageCount file = 0 := by
    show (mid.grown file).wholePages file % PageFile.pageLimit = 0
    rw [wholePages_grown still.orderly.tables listed still.bounded listed, if_pos rfl, whole, last]
    exact Nat.mod_self _
  have absent : (mid.grown file).pool.resident? ⟨file.id, mid.pageCount file⟩ = none := by
    cases there : mid.pool.resident? ⟨file.id, mid.pageCount file⟩ with
    | none => exact there
    | some frame =>
        have within := still.agrees.within _ frame file there listed
        exact absurd within (Nat.lt_irrefl _)
  have past : (mid.grown file).pageCount file ≤ mid.pageCount file := by
    rw [wrapped]
    exact Nat.zero_le _
  have known : (mid.grown file).catalog.file file.id = .ok file := listed
  obtain ⟨stop, after, failed, same⟩ :=
    readPage_missing txn ⟨file.id, mid.pageCount file⟩ .exclusive known rfl absent past
  have inserted : insertInFile file txn values s = (.error stop, after) := by
    rw [ran, bind_apply, changePage, bind_apply, failed]
  refine ⟨stop, after, ?_, ?_, fun number final_page => ?_⟩
  · unfold insertRow
    simp only [tableFile, bind_apply, query_apply, registered, Except.mapError, inserted]
  · have disk := (readPage_spec (s := mid.grown file) still.orderly.pool failed).1.disk
    exact disk.trans (disk_grown_congr reads.disk file)
  · rw [same]
    exact final number final_page

end

end Ledger

end RowStore
