/-
# RowStore.Proofs.Store.Calls -- the calls on rows, as moves

A call that fails has made a walk and nothing else.  A successful insert or delete has
made a walk and then exchanged one resident page, which its transaction holds
exclusively, for a changed and marked version (`insertRow_spec`, `deleteRow_spec`).  A
scan has made walks between which it read its pages (`scan_spec`).

Every later statement about these calls is derived from these specifications and opens
no call again.
-/
import RowStore.Proofs.Store.Moves

namespace RowStore

set_option autoImplicit false

namespace StoreAction

open Store RowStore.Action

variable {txn : TxnId} {s after : Store}

/-! ## Locks and lookups -/

theorem acquire_spec {r : LockRequest} {answer : Except Stop Unit}
    (run : acquire txn r s = (answer, after)) :
    s.Reads txn after ∧ after.pool = s.pool ∧
      (answer = .ok () → ∃ mode, after.locks.heldMode txn r.page = some mode ∧
        mode.covers r.mode = true) := by
  have granted : (s.locks.request txn r).1 = .granted → ∃ held,
      (s.locks.request txn r).2.heldMode txn r.page = some held ∧ held.covers r.mode = true :=
    LockTable.heldMode_of_granted
  have move : Move txn s { s with locks := (s.locks.request txn r).2 } := .request s r
  unfold acquire at run
  simp only [bind_apply, get_apply, set_apply] at run
  generalize s.locks.request txn r = outcome at run granted move
  obtain ⟨verdict, locks⟩ := outcome
  cases verdict with
  | granted =>
      cases run
      exact ⟨⟨.single move, rfl⟩, rfl, fun _ => granted rfl⟩
  | deadlock =>
      cases run
      exact ⟨⟨.single move, rfl⟩, rfl, fun ok => by cases ok⟩
  | wait =>
      cases run
      exact ⟨⟨.single move, rfl⟩, rfl, fun ok => by cases ok⟩

theorem acquire_locks {r : LockRequest} {answer : Except Stop Unit}
    (run : acquire txn r s = (answer, after)) : ∃ locks, after = { s with locks } := by
  unfold acquire at run
  simp only [bind_apply, get_apply, set_apply] at run
  generalize s.locks.request txn r = outcome at run
  obtain ⟨_ | _ | _, locks⟩ := outcome <;> cases run <;> exact ⟨locks, rfl⟩

theorem lookup_apply (id : PageId) (s : Store) :
    lookup id s = (.ok (s.pool.resident? id), { s with pool := (s.pool.lookup id).2 }) := by
  rw [← Pool.lookup_fst]
  rfl

theorem query_apply {α : Type} (look : Store → Except Fault α) (s : Store) :
    query look s = ((look s).mapError Stop.fault, s) := ofExcept_apply _ _

theorem query_ok {α : Type} {look : Store → Except Fault α} {a : α}
    (run : query look s = (.ok a, after)) : look s = .ok a ∧ after = s := by
  rw [query_apply] at run
  cases found : look s <;> rw [found] at run <;> cases run
  exact ⟨rfl, rfl⟩

theorem ofExcept_state {α : Type} {r : Except Fault α} {answer : Except Stop α}
    (run : (ofExcept r : StoreAction α) s = (answer, after)) : after = s := by
  rw [ofExcept_apply] at run
  exact (Prod.mk.inj run).2.symm

theorem query_state {α : Type} {look : Store → Except Fault α} {answer : Except Stop α}
    (run : query look s = (answer, after)) : after = s := ofExcept_state run

theorem bring_spec {page : Page} {answer : Except Stop Frame}
    (run : bring page s = (answer, after)) :
    (∃ stop, answer = .error stop ∧ after = s) ∨
      ∃ frame pool, answer = .ok frame ∧ s.pool.bring page = .ok (frame, pool) ∧
        after = { s with pool } := by
  unfold bring at run
  simp only [bind_apply, get_apply, ofExcept_apply] at run
  cases brought : s.pool.bring page with
  | error fault =>
      rw [brought] at run
      cases run
      exact Or.inl ⟨_, rfl, rfl⟩
  | ok pair =>
      rw [brought] at run
      cases run
      exact Or.inr ⟨_, _, rfl, rfl, rfl⟩

/-- A fetch turns the pool over and does nothing else. -/
theorem fetch_turns {id : PageId} {answer : Except Stop Frame} (ok : s.pool.Consistent)
    (holds : s.Holds txn id) (run : fetch id s = (answer, after)) :
    ∃ pool, after = { s with pool } ∧ pool.Consistent ∧ pool.capacity = s.pool.capacity ∧
      (∀ other, s.Turnover txn pool other) ∧
      ∀ frame, answer = .ok frame → pool.resident? id = some frame := by
  unfold fetch at run
  rw [bind_apply, lookup_apply] at run
  have consistent := ok.lookup id
  have capacity := Pool.capacity_lookup s.pool id
  have touched : ∀ other, s.Turnover txn (s.pool.lookup id).2 other :=
    fun other => .stays (Pool.resident?_lookup _ _ _)
  cases resident : s.pool.resident? id with
  | some frame =>
      rw [resident] at run
      cases run
      refine ⟨_, rfl, consistent, capacity, touched, fun frame same => ?_⟩
      cases same
      exact (Pool.resident?_lookup _ _ _).trans resident
  | none =>
      rw [resident] at run
      rcases bind_cases run with ⟨stop, looked, rfl⟩ | ⟨file, mid, looked, later⟩
      · rw [query_state looked]
        exact ⟨_, rfl, consistent, capacity, touched, fun _ same => by cases same⟩
      obtain ⟨registered, rfl⟩ := query_ok looked
      rcases bind_cases later with ⟨stop, failed, rfl⟩ | ⟨page, mid, read, last⟩
      · rw [query_state failed]
        exact ⟨_, rfl, consistent, capacity, touched, fun _ same => by cases same⟩
      obtain ⟨image, rfl⟩ := query_ok read
      have onDisk : s.readFromDisk file id = .ok page := image
      rcases bring_spec last with ⟨stop, rfl, rfl⟩ | ⟨frame, pool, rfl, brought, rfl⟩
      · exact ⟨_, rfl, consistent, capacity, touched, fun _ same => by cases same⟩
      · have kept := (consistent.capacity_bring brought).trans capacity
        obtain ⟨-, rfl, consistent, there, others⟩ := consistent.bring brought
        have named : frame.page.id = id := by rw [(readFromDisk_eq_ok_iff.1 onDisk).2.2.1]
        rw [named] at there others
        simp only [Pool.resident?_lookup] at others
        refine ⟨pool, rfl, consistent, kept, fun other => ?_, fun _ same => ?_⟩
        · by_cases here : other = id
          · subst here
            exact .loaded resident holds registered onDisk there
          · rcases others other here with same | ⟨-, gone, held, was, clean⟩
            · exact .stays same
            · exact .dropped gone was clean
        · cases same
          exact there

theorem fetch_spec {id : PageId} {answer : Except Stop Frame} (ok : s.pool.Consistent)
    (holds : s.Holds txn id) (run : fetch id s = (answer, after)) :
    s.Reads txn after ∧ after.locks = s.locks ∧
      ∀ frame, answer = .ok frame → after.pool.resident? id = some frame := by
  obtain ⟨pool, rfl, consistent, capacity, each, there⟩ := fetch_turns ok holds run
  exact ⟨⟨.single (.turn s consistent capacity each), rfl⟩, rfl, there⟩

theorem readPage_spec {id : PageId} {mode : LockMode} {answer : Except Stop Frame}
    (ok : s.pool.Consistent) (run : readPage txn id mode s = (answer, after)) :
    s.Reads txn after ∧ ∀ frame, answer = .ok frame → after.pool.resident? id = some frame ∧
      ∃ held, after.locks.heldMode txn id = some held ∧ held.covers mode = true := by
  unfold readPage at run
  rcases bind_cases run with ⟨stop, stopped, rfl⟩ | ⟨⟨⟩, mid, acquired, later⟩
  · exact ⟨(acquire_spec stopped).1, fun _ same => by cases same⟩
  · obtain ⟨reads, -, granted⟩ := acquire_spec acquired
    obtain ⟨held, found, covers⟩ := granted rfl
    obtain ⟨more, locks, there⟩ := fetch_spec (reads.walk.consistent ok) ⟨held, found⟩ later
    exact ⟨reads.trans more, fun frame same => ⟨there frame same, held, locks ▸ found, covers⟩⟩

/-- A read changes the locks and turns the pool over, and does nothing else. -/
theorem readPage_turns {id : PageId} {mode : LockMode} {answer : Except Stop Frame}
    (ok : s.pool.Consistent) (run : readPage txn id mode s = (answer, after)) :
    ∃ locks pool, after = { s with locks, pool } ∧
      ∀ other, Turnover txn { s with locks } pool other := by
  unfold readPage at run
  rcases bind_cases run with ⟨stop, stopped, rfl⟩ | ⟨⟨⟩, mid, acquired, later⟩
  · obtain ⟨locks, rfl⟩ := acquire_locks stopped
    exact ⟨locks, s.pool, rfl, fun _ => .stays rfl⟩
  · obtain ⟨reads, -, granted⟩ := acquire_spec acquired
    obtain ⟨locks, rfl⟩ := acquire_locks acquired
    obtain ⟨held, found, -⟩ := granted rfl
    obtain ⟨pool, rfl, -, -, each, -⟩ := fetch_turns (reads.walk.consistent ok) ⟨held, found⟩ later
    exact ⟨locks, pool, rfl, each⟩

/-! ## Changing a page -/

theorem storePage_spec {page : Page} {frame : Frame} (ok : s.pool.Consistent)
    (there : s.pool.resident? frame.id = some frame) (same : page.id = frame.id) :
    ∃ after, storePage page s = (.ok (), after) ∧ s.Replaces after { frame with page } := by
  obtain ⟨index, occupied, -⟩ := ok.resident?_eq_some.1 there
  have listed := ok.listed index frame occupied
  obtain ⟨consistent, residents⟩ := ok.setPage occupied same
  refine ⟨{ s with pool := s.pool.setPage index page }, ?_, ⟨_, rfl⟩, consistent,
    Pool.capacity_setPage _ _ _, residents⟩
  unfold storePage modifyPool
  simp only [modify_apply, same, listed]

/-- Once its page is read, a page action runs on it under an exclusive lock, and the page
that the action leaves stays in the pool. -/
theorem changePage_of_read {α : Type} {id : PageId} {action : PageAction α} {frame : Frame}
    {mid : Store} (ok : s.pool.Consistent) (stays : ∀ page, (action page).2.id = page.id)
    (read : readPage txn id .exclusive s = (.ok frame, mid)) :
    ∃ after, changePage txn id action s = (match (action frame.page).1 with
          | .ok a => .ok (a, { frame with page := (action frame.page).2 })
          | .error fault => .error (.fault fault), after) ∧
      frame.id = id ∧ mid.pool.resident? frame.id = some frame ∧
      mid.locks.heldMode txn frame.id = some .exclusive ∧
      mid.Replaces after { frame with page := (action frame.page).2 } := by
  obtain ⟨reads, found⟩ := readPage_spec ok read
  obtain ⟨there, held, owned, covers⟩ := found frame rfl
  have consistent := reads.walk.consistent ok
  obtain ⟨own, named⟩ := consistent.resident?_id there
  have exclusive : held = .exclusive := by
    cases held with
    | exclusive => rfl
    | shared => cases covers
  subst exclusive own
  have same : (action frame.page).2.id = frame.id := by rw [stays, named]
  obtain ⟨after, stored, replaces⟩ := storePage_spec consistent there same
  refine ⟨after, ?_, rfl, there, owned, replaces⟩
  unfold changePage
  rw [bind_apply, read]
  dsimp only
  generalize action frame.page = result at stored ⊢
  obtain ⟨reply, page⟩ := result
  simp only at stored ⊢
  rw [bind_apply, stored]
  cases reply <;> rfl

theorem changePage_spec {α : Type} {id : PageId} {action : PageAction α}
    {answer : Except Stop (α × Frame)} (ok : s.pool.Consistent)
    (stays : ∀ page, (action page).2.id = page.id)
    (run : changePage txn id action s = (answer, after)) :
    (s.Reads txn after ∧ ∃ stop, answer = .error stop) ∨
      ∃ frame, frame.id = id ∧ Changes txn s after frame (action frame.page).2 ∧
        answer = match (action frame.page).1 with
          | .ok a => .ok (a, { frame with page := (action frame.page).2 })
          | .error fault => .error (.fault fault) := by
  rcases read : readPage txn id .exclusive s with ⟨stop | frame, mid⟩
  · unfold changePage at run
    rw [bind_apply, read] at run
    cases run
    exact Or.inl ⟨(readPage_spec ok read).1, stop, rfl⟩
  · obtain ⟨last, ran, own, there, owned, replaces⟩ := changePage_of_read ok stays read
    rw [ran] at run
    cases run
    exact Or.inr ⟨frame, own, ⟨mid, (readPage_spec ok read).1, there, owned, replaces⟩, rfl⟩

/-! ## Inserting -/

/-- An attempt to store a row on a page: a full page is left alone, and so is one that
refuses the row. -/
theorem insertIfRoom_apply (txn : TxnId) (values : List Value) (page : Page) :
    insertIfRoom txn values page =
      if page.freeCount = 0 then (.ok none, page)
      else
        match page.insert values with
        | .ok (id, stored) => (.ok (some id), stored.withMark (some txn))
        | .error fault => (.error fault, page) := by
  unfold insertIfRoom
  rw [PageAction.bind_apply, PageAction.get_apply]
  simp only
  split
  · rfl
  · rw [PageAction.bind_apply, PageAction.insert_apply]
    cases page.insert values <;> rfl

theorem insertIfRoom_cases (txn : TxnId) (values : List Value) (page : Page) :
    insertIfRoom txn values page = (.ok none, page) ∨
      (∃ fault, insertIfRoom txn values page = (.error fault, page)) ∨
      ∃ id stored, page.insert values = .ok (id, stored) ∧
        insertIfRoom txn values page = (.ok (some id), stored.withMark (some txn)) := by
  rw [insertIfRoom_apply]
  split
  · exact Or.inl rfl
  · cases page.insert values with
    | error fault => exact Or.inr (Or.inl ⟨fault, rfl⟩)
    | ok pair => exact Or.inr (Or.inr ⟨pair.1, pair.2, rfl, rfl⟩)

theorem insertIfRoom_id (txn : TxnId) (values : List Value) (page : Page) :
    (insertIfRoom txn values page).2.id = page.id := by
  rcases insertIfRoom_cases txn values page with same | ⟨fault, same⟩ | ⟨id, stored, done, same⟩
  · rw [same]
  · rw [same]
  · rw [same]
    obtain ⟨image, rfl⟩ := Page.insert_image done
    rfl

/-- One page is tried: the row is stored there, or the page was only read.  If the page was
full, the transaction has it to itself now. -/
theorem changePage_insertIfRoom {id : PageId} {values : List Value}
    {answer : Except Stop (Option RecordId × Frame)} (ok : s.pool.Consistent)
    (run : changePage txn id (insertIfRoom txn values) s = (answer, after)) :
    (s.Reads txn after ∧ ((∃ stop, answer = .error stop) ∨
        (∃ frame, answer = .ok (none, frame)) ∧
          after.locks.heldMode txn id = some .exclusive)) ∨
      ∃ row changed, answer = .ok (some row, changed) ∧ Inserts txn values s after row changed := by
  rcases changePage_spec ok (insertIfRoom_id txn values) run with
    ⟨reads, stopped⟩ | ⟨frame, rfl, changes, reply⟩
  · exact Or.inl ⟨reads, Or.inl stopped⟩
  rcases insertIfRoom_cases txn values frame.page with
    same | ⟨fault, same⟩ | ⟨row, stored, done, same⟩ <;> rw [same] at changes reply
  · obtain ⟨reads, owned⟩ := changes.reads
    exact Or.inl ⟨reads, Or.inr ⟨⟨_, reply⟩, owned⟩⟩
  · exact Or.inl ⟨changes.reads.1, Or.inl ⟨_, reply⟩⟩
  · exact Or.inr ⟨row, _, reply, frame, stored, done, changes.edits, rfl⟩

/-- If none of the pages has room, the transaction has them all to itself. -/
theorem insertOnPages_spec {file : TableFile} {values : List Value} {pages : List Nat}
    {answer : Except Stop (Option (RecordId × Frame))} (ok : s.pool.Consistent)
    (run : insertOnPages file txn values pages s = (answer, after)) :
    (s.Reads txn after ∧ ((∃ stop, answer = .error stop) ∨ answer = .ok none ∧
        ∀ number ∈ pages, after.locks.heldMode txn ⟨file.id, number⟩ = some .exclusive)) ∨
      ∃ row changed, answer = .ok (some (row, changed)) ∧
        Inserts txn values s after row changed := by
  induction pages generalizing s with
  | nil =>
      cases run
      exact Or.inl ⟨.refl _ _, Or.inr ⟨rfl, fun _ member => by cases member⟩⟩
  | cons number rest ih =>
      rw [insertOnPages] at run
      rcases bind_cases run with ⟨stop, stopped, rfl⟩ | ⟨⟨reply, frame⟩, mid, tried, later⟩
      · rcases changePage_insertIfRoom ok stopped with ⟨reads, -⟩ | ⟨row, changed, same, -⟩
        · exact Or.inl ⟨reads, Or.inl ⟨stop, rfl⟩⟩
        · cases same
      rcases changePage_insertIfRoom ok tried with
        ⟨reads, ⟨stop, same⟩ | ⟨⟨held, same⟩, owned⟩⟩ | ⟨row, changed, same, inserts⟩
      · cases same
      · cases same
        rcases ih (reads.walk.consistent ok) later with
          ⟨more, ended⟩ | ⟨row, changed, same, inserts⟩
        · refine Or.inl ⟨reads.trans more, ended.imp id fun ⟨full, others⟩ => ⟨full, ?_⟩⟩
          intro n member
          rcases List.mem_cons.1 member with rfl | other
          · exact exclusive_of_walks more.walk owned
          · exact others n other
        · exact Or.inr ⟨row, changed, same, Inserts.after_walk reads.walk inserts⟩
      · cases same
        cases later
        exact Or.inr ⟨row, _, rfl, inserts⟩

theorem appendPage_apply (file : TableFile) (s : Store) :
    appendPage file s = (.ok ⟨file.id, s.pageCount file⟩, s.grown file) := by
  obtain ⟨pages, appended⟩ := s.append_isOk file
  unfold appendPage
  simp only [bind_apply, get_apply, appended]
  rw [(setPageFile_append appended).2]
  rfl

theorem appendPage_spec {table : TableId} {file : TableFile} {answer : Except Stop PageId}
    (registered : s.catalog.file table = .ok file) (owns : s.Owns txn file)
    (run : appendPage file s = (answer, after)) :
    s.Walks txn after ∧ answer = .ok ⟨file.id, s.pageCount file⟩ ∧ after = s.grown file := by
  rw [appendPage_apply] at run
  cases run
  exact ⟨.single (.grow s registered owns), rfl, rfl⟩

/-- A page that was appended and found full is one more page that the transaction has to
itself. -/
theorem owns_grown {file : TableFile} (owns : s.Owns txn file)
    (reads : (s.grown file).Reads txn after)
    (owned : after.locks.heldMode txn ⟨file.id, s.pageCount file⟩ = some .exclusive) :
    after.Owns txn file := by
  intro number inside
  rw [(views_congr reads.disk file).2.1] at inside
  have last := s.pageCount_grown_le file
  rcases Nat.lt_or_eq_of_le (Nat.lt_succ_iff.1 (Nat.lt_of_lt_of_le inside last)) with old | rfl
  · exact exclusive_of_walks reads.walk (owns number old)
  · exact owned

theorem insertOnNewPage_spec {table : TableId} {file : TableFile} {values : List Value}
    {attempts : Nat} {answer : Except Stop (RecordId × Frame)} (ok : s.pool.Consistent)
    (registered : s.catalog.file table = .ok file) (owns : s.Owns txn file)
    (run : insertOnNewPage file txn values attempts s = (answer, after)) :
    (s.Walks txn after ∧ ∃ stop, answer = .error stop) ∨
      ∃ row changed, answer = .ok (row, changed) ∧ Inserts txn values s after row changed := by
  induction attempts generalizing s with
  | zero =>
      cases run
      exact Or.inl ⟨.refl, _, rfl⟩
  | succ attempts ih =>
      rw [insertOnNewPage] at run
      rcases bind_cases run with ⟨stop, stopped, rfl⟩ | ⟨page, grown, appended, later⟩
      · exact Or.inl ⟨(appendPage_spec registered owns stopped).1, stop, rfl⟩
      obtain ⟨growth, same, rfl⟩ := appendPage_spec registered owns appended
      cases same
      have kept : (s.grown file).pool.Consistent := growth.consistent ok
      rcases bind_cases later with ⟨stop, stopped, rfl⟩ | ⟨⟨reply, frame⟩, mid, tried, last⟩
      · rcases changePage_insertIfRoom kept stopped with ⟨reads, -⟩ | ⟨row, changed, same, -⟩
        · exact Or.inl ⟨growth.trans reads.walk, stop, rfl⟩
        · cases same
      rcases changePage_insertIfRoom kept tried with
        ⟨reads, ⟨stop, same⟩ | ⟨⟨held, same⟩, owned⟩⟩ | ⟨row, changed, same, inserts⟩
      · cases same
      · cases same
        have walk : s.Walks txn mid := growth.trans reads.walk
        have still : mid.catalog.file table = .ok file := by
          rw [(Walks.grows walk).catalog, registered]
        rcases ih (walk.consistent ok) still (owns_grown owns reads owned) last with
          ⟨more, ended⟩ | ⟨row, changed, same, inserts⟩
        · exact Or.inl ⟨walk.trans more, ended⟩
        · exact Or.inr ⟨row, changed, same, Inserts.after_walk walk inserts⟩
      · cases same
        cases last
        exact Or.inr ⟨row, _, rfl, Inserts.after_walk growth inserts⟩

theorem insertInFile_spec {table : TableId} {file : TableFile} {values : List Value}
    {answer : Except Stop (RecordId × Frame)} (ok : s.pool.Consistent)
    (registered : s.catalog.file table = .ok file)
    (run : insertInFile file txn values s = (answer, after)) :
    (s.Walks txn after ∧ ∃ stop, answer = .error stop) ∨
      ∃ row changed, answer = .ok (row, changed) ∧ Inserts txn values s after row changed := by
  unfold insertInFile at run
  rcases bind_cases run with ⟨stop, refused, rfl⟩ | ⟨⟨⟩, start, checked, later⟩
  · rw [ofExcept_state refused]
    exact Or.inl ⟨.refl, stop, rfl⟩
  obtain rfl := ofExcept_state checked
  rw [bind_apply, get_apply] at later
  simp only at later
  rcases bind_cases later with ⟨stop, stopped, rfl⟩ | ⟨reply, mid, tried, last⟩
  · rcases insertOnPages_spec ok stopped with ⟨reads, -⟩ | ⟨row, changed, same, -⟩
    · exact Or.inl ⟨reads.walk, stop, rfl⟩
    · cases same
  rcases insertOnPages_spec ok tried with
    ⟨reads, ⟨stop, same⟩ | ⟨same, owned⟩⟩ | ⟨row, changed, same, inserts⟩
  · cases same
  · cases same
    simp only at last
    rw [bind_apply, get_apply] at last
    simp only at last
    have walk := reads.walk
    have still : mid.catalog.file table = .ok file := by rw [(Walks.grows walk).catalog, registered]
    have owns : mid.Owns txn file := by
      intro number inside
      rw [(views_congr reads.disk file).2.1] at inside
      exact owned number (List.mem_range.2 inside)
    rcases insertOnNewPage_spec (walk.consistent ok) still owns last with
      ⟨more, ended⟩ | ⟨row, changed, same, inserts⟩
    · exact Or.inl ⟨walk.trans more, ended⟩
    · exact Or.inr ⟨row, changed, same, Inserts.after_walk walk inserts⟩
  · cases same
    cases last
    exact Or.inr ⟨row, _, rfl, inserts⟩

/-- Marking again a page that the transaction has just changed is no change. -/
theorem markChanged_spec (frame : Frame) (ok : s.pool.Consistent)
    (there : s.pool.resident? frame.id = some frame) (marked : frame.page.mark = some txn) :
    ∃ pool, markChanged txn frame s = (.ok (), { s with pool }) ∧ pool.Consistent ∧
      pool.capacity = s.pool.capacity ∧ ∀ id, pool.resident? id = s.pool.resident? id := by
  have again : ({ frame with page := frame.page.withMark (some txn) } : Frame) = frame := by
    rw [Page.withMark, ← marked]
  obtain ⟨own, named⟩ := ok.resident?_id there
  obtain ⟨index, occupied, -⟩ := ok.resident?_eq_some.1 there
  have listed := ok.listed index frame occupied
  have installed : s.pool.install frame = .ok (s.pool.place index frame) := by
    rw [Pool.install, listed]
  obtain ⟨consistent, here, others⟩ := ok.install named installed
  refine ⟨s.pool.place index frame, ?_, consistent, Pool.capacity_place _ _ _, fun id => ?_⟩
  · unfold markChanged install
    rw [again]
    simp only [bind_apply, get_apply, ofExcept_apply]
    rw [installed]
    rfl
  · by_cases same : id = frame.id
    · rw [same, here, there]
    · rcases others id same with kept | ⟨absent, -⟩
      · exact kept
      · rw [there] at absent
        cases absent

/-- A page that was exchanged for a marked one is marked again and the call is over. -/
theorem markChanged_replaces {mid : Store} {frame : Frame} {page : Page}
    {answer : Except Stop Unit}
    (replaces : s.Replaces mid { frame with page := page.withMark (some txn) })
    (run : markChanged txn { frame with page := page.withMark (some txn) } mid = (answer, after)) :
    answer = .ok () ∧ s.Replaces after { frame with page := page.withMark (some txn) } := by
  have here : mid.pool.resident? frame.id =
      some { frame with page := page.withMark (some txn) } := by
    rw [replaces.residents, if_pos rfl]
  obtain ⟨pool, marked, consistent, capacity, same⟩ := markChanged_spec
    ({ frame with page := page.withMark (some txn) } : Frame) replaces.consistent here rfl
  rw [marked] at run
  cases run
  exact ⟨rfl, Replaces.again replaces consistent capacity same⟩

theorem markChanged_edits {mid : Store} {frame : Frame} {page : Page}
    {answer : Except Stop Unit} (edits : Edits txn s mid frame (page.withMark (some txn)))
    (run : markChanged txn { frame with page := page.withMark (some txn) } mid = (answer, after)) :
    answer = .ok () ∧ Edits txn s after frame (page.withMark (some txn)) := by
  obtain ⟨last, walk, there, owned, replaces⟩ := edits
  obtain ⟨fine, again⟩ := markChanged_replaces replaces run
  exact ⟨fine, last, walk, there, owned, again⟩

theorem markChanged_changes {mid : Store} {frame : Frame} {page : Page}
    {answer : Except Stop Unit} (changes : Changes txn s mid frame (page.withMark (some txn)))
    (run : markChanged txn { frame with page := page.withMark (some txn) } mid = (answer, after)) :
    answer = .ok () ∧ Changes txn s after frame (page.withMark (some txn)) := by
  obtain ⟨last, reads, there, owned, replaces⟩ := changes
  obtain ⟨fine, again⟩ := markChanged_replaces replaces run
  exact ⟨fine, last, reads, there, owned, again⟩

/-- **An insert** that fails has made a walk.  One that succeeds has stored the row in
the page of the id it answers. -/
theorem insertRow_spec {table : TableId} {values : List Value} {answer : Except Stop RecordId}
    (ok : s.pool.Consistent) (run : insertRow txn table values s = (answer, after)) :
    (s.Walks txn after ∧ ∃ stop, answer = .error stop) ∨
      ∃ id frame stored, answer = .ok id ∧ frame.page.insert values = .ok (id, stored) ∧
        Edits txn s after frame (stored.withMark (some txn)) := by
  unfold insertRow at run
  rcases bind_cases run with ⟨stop, unknown, rfl⟩ | ⟨file, start, looked, later⟩
  · rw [query_state unknown]
    exact Or.inl ⟨.refl, stop, rfl⟩
  obtain ⟨registered, rfl⟩ := query_ok looked
  rcases bind_cases later with ⟨stop, stopped, rfl⟩ | ⟨⟨id, changed⟩, mid, inserted, last⟩
  · rcases insertInFile_spec ok registered stopped with ⟨walk, -⟩ | ⟨row, changed, same, -⟩
    · exact Or.inl ⟨walk, stop, rfl⟩
    · cases same
  rcases insertInFile_spec ok registered inserted with
    ⟨-, stop, same⟩ | ⟨row, held, same, frame, stored, done, edits, made⟩
  · cases same
  cases same
  subst made
  rcases bind_cases last with ⟨stop, marked, rfl⟩ | ⟨⟨⟩, final, marked, ended⟩
  · have fine := (markChanged_edits edits marked).1
    cases fine
  · cases ended
    exact Or.inr ⟨id, frame, stored, rfl, done, (markChanged_edits edits marked).2⟩

/-! ## Deleting -/

/-- What a delete does on the page of the row. -/
def eraseRow (txn : TxnId) (id : RecordId) : PageAction Unit := do
  ExceptT.adapt (noRowAt id) (PageAction.delete id)
  PageAction.mark (some txn)

theorem eraseRow_cases (txn : TxnId) (id : RecordId) (page : Page) :
    (∃ fault, page.delete id = .error fault ∧
        eraseRow txn id page = (.error (noRowAt id fault), page)) ∨
      ∃ rest, page.delete id = .ok rest ∧
        eraseRow txn id page = (.ok (), rest.withMark (some txn)) := by
  have adapted : (ExceptT.adapt (noRowAt id) (PageAction.delete id) : PageAction Unit) page =
      Prod.map (Except.mapError (noRowAt id)) (fun left => left) (PageAction.delete id page) := rfl
  unfold eraseRow
  rw [PageAction.bind_apply, adapted, PageAction.delete_apply]
  cases page.delete id with
  | error fault => exact Or.inl ⟨fault, rfl, rfl⟩
  | ok rest => exact Or.inr ⟨rest, rfl, rfl⟩

theorem eraseRow_id (txn : TxnId) (id : RecordId) (page : Page) :
    (eraseRow txn id page).2.id = page.id := by
  rcases eraseRow_cases txn id page with ⟨fault, -, same⟩ | ⟨rest, done, same⟩
  · rw [same]
  · rw [same]
    obtain ⟨image, rfl⟩ := Page.delete_image done
    rfl

theorem deleteInFile_spec {file : TableFile} {row : Row} {id : RecordId}
    {answer : Except Stop Frame} (ok : s.pool.Consistent) (named : row.id? = some id)
    (run : deleteInFile file txn row s = (answer, after)) :
    (s.Walks txn after ∧ ∃ stop, answer = .error stop) ∨
      ∃ frame rest, answer = .ok { frame with page := rest.withMark (some txn) } ∧
        frame.page.delete id = .ok rest ∧ Edits txn s after frame (rest.withMark (some txn)) := by
  unfold deleteInFile at run
  simp only [named] at run
  rcases bind_cases run with ⟨stop, foreign, rfl⟩ | ⟨⟨⟩, start, checked, later⟩
  · rw [ofExcept_state foreign]
    exact Or.inl ⟨.refl, stop, rfl⟩
  obtain rfl := ofExcept_state checked
  rw [bind_apply, get_apply] at later
  simp only at later
  split at later
  · cases later
    exact Or.inl ⟨.refl, _, rfl⟩
  · have tried : (changePage txn id.page (eraseRow txn id) >>= fun changed => pure changed.2) start =
        (answer, after) := later
    rcases bind_cases tried with ⟨stop, stopped, rfl⟩ | ⟨changed, mid, erased, last⟩
    · rcases changePage_spec ok (eraseRow_id txn id) stopped with
        ⟨reads, -⟩ | ⟨frame, -, changes, reply⟩
      · exact Or.inl ⟨reads.walk, stop, rfl⟩
      · rcases eraseRow_cases txn id frame.page with ⟨fault, -, same⟩ | ⟨rest, done, same⟩ <;>
          rw [same] at changes reply
        · exact Or.inl ⟨changes.reads.1.walk, stop, rfl⟩
        · cases reply
    · cases last
      rcases changePage_spec ok (eraseRow_id txn id) erased with
        ⟨-, stop, same⟩ | ⟨frame, -, changes, reply⟩
      · cases same
      · rcases eraseRow_cases txn id frame.page with ⟨fault, -, same⟩ | ⟨rest, done, same⟩ <;>
          rw [same] at changes reply
        · cases reply
        · cases reply
          exact Or.inr ⟨frame, rest, rfl, done, changes.edits⟩

/-- **A delete** that fails has made a walk.  One that succeeds has emptied the slot that
the row's id names. -/
theorem deleteRow_spec {row : Row} {answer : Except Stop Unit} (ok : s.pool.Consistent)
    (run : deleteRow txn row s = (answer, after)) :
    (s.Walks txn after ∧ ∃ stop, answer = .error stop) ∨
      ∃ id frame rest, answer = .ok () ∧ row.id? = some id ∧ frame.page.delete id = .ok rest ∧
        Edits txn s after frame (rest.withMark (some txn)) := by
  unfold deleteRow at run
  cases named : row.id? with
  | none =>
      rw [named] at run
      cases run
      exact Or.inl ⟨.refl, _, rfl⟩
  | some id =>
      simp only [named] at run
      rcases bind_cases run with ⟨stop, unknown, rfl⟩ | ⟨file, start, looked, later⟩
      · rw [query_state unknown]
        exact Or.inl ⟨.refl, stop, rfl⟩
      obtain ⟨-, rfl⟩ := query_ok looked
      rcases bind_cases later with ⟨stop, stopped, rfl⟩ | ⟨changed, mid, erased, last⟩
      · rcases deleteInFile_spec ok named stopped with ⟨walk, -⟩ | ⟨frame, rest, same, -⟩
        · exact Or.inl ⟨walk, stop, rfl⟩
        · cases same
      · rcases deleteInFile_spec ok named erased with
          ⟨-, stop, same⟩ | ⟨frame, rest, same, done, edits⟩
        · cases same
        · cases same
          obtain ⟨fine, again⟩ := markChanged_edits edits last
          exact Or.inr ⟨id, frame, rest, fine, rfl, done, again⟩

/-! ## Scanning -/

/-- What a scan saw: it walked to each page and read the rows off it under a lock. -/
inductive Scanned (file : TableFile) (txn : TxnId) : List Nat → Store → List Row → Store → Prop where
  | done (s : Store) : Scanned file txn [] s [] s
  | page {number : Nat} {rest : List Nat} {s mid after : Store} {frame : Frame}
      {front back : List Row} (reads : s.Reads txn mid)
      (there : mid.pool.resident? ⟨file.id, number⟩ = some frame)
      (holds : mid.Holds txn ⟨file.id, number⟩) (rows : frame.page.rows = .ok front)
      (later : Scanned file txn rest mid back after) :
      Scanned file txn (number :: rest) s (front ++ back) after

theorem Scanned.reads {file : TableFile} {pages : List Nat} {rows : List Row}
    (scanned : Scanned file txn pages s rows after) : s.Reads txn after := by
  induction scanned with
  | done => exact .refl _ _
  | page reads _ _ _ _ ih => exact reads.trans ih

theorem scanPages_spec {file : TableFile} {pages : List Nat} {answer : Except Stop (List Row)}
    (ok : s.pool.Consistent) (run : scanPages file txn pages s = (answer, after)) :
    s.Reads txn after ∧ ∀ rows, answer = .ok rows → Scanned file txn pages s rows after := by
  induction pages generalizing s answer with
  | nil =>
      cases run
      refine ⟨.refl _ _, fun rows same => ?_⟩
      cases same
      exact .done _
  | cons number rest ih =>
      rw [scanPages] at run
      rcases bind_cases run with ⟨stop, stopped, rfl⟩ | ⟨frame, mid, read, later⟩
      · exact ⟨(readPage_spec ok stopped).1, fun _ same => by cases same⟩
      obtain ⟨reads, found⟩ := readPage_spec ok read
      obtain ⟨there, held, holds, -⟩ := found frame rfl
      rcases bind_cases later with ⟨stop, failed, rfl⟩ | ⟨front, same, rows, last⟩
      · rw [ofExcept_state failed]
        exact ⟨reads, fun _ same => by cases same⟩
      obtain rfl := ofExcept_state rows
      have listed : frame.page.rows = .ok front := by
        rw [ofExcept_apply] at rows
        cases outcome : frame.page.rows <;> rw [outcome] at rows <;> cases rows
        rfl
      rcases bind_cases last with ⟨stop, stopped, rfl⟩ | ⟨back, final, scanned, ended⟩
      · exact ⟨reads.trans (ih (reads.walk.consistent ok) stopped).1, fun _ same => by cases same⟩
      · cases ended
        obtain ⟨more, each⟩ := ih (reads.walk.consistent ok) scanned
        refine ⟨reads.trans more, fun rows same => ?_⟩
        cases same
        exact .page reads there ⟨held, holds⟩ listed (each back rfl)

/-- **A scan** reads only, and the rows it answers are those it saw. -/
theorem scan_spec {table : TableId} {answer : Except Stop (List Row)} (ok : s.pool.Consistent)
    (run : scan txn table s = (answer, after)) :
    s.Reads txn after ∧ ∀ rows, answer = .ok rows → ∃ file, s.catalog.file table = .ok file ∧
      Scanned file txn (List.range (s.pageCount file)) s rows after := by
  unfold scan at run
  rcases bind_cases run with ⟨stop, unknown, rfl⟩ | ⟨file, start, looked, later⟩
  · rw [query_state unknown]
    exact ⟨.refl _ _, fun _ same => by cases same⟩
  obtain ⟨registered, rfl⟩ := query_ok looked
  rw [bind_apply, get_apply] at later
  obtain ⟨reads, each⟩ := scanPages_spec ok later
  exact ⟨reads, fun rows same => ⟨file, registered, each rows same⟩⟩

end StoreAction

end RowStore
