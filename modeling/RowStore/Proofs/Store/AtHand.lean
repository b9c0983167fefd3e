/-
# RowStore.Proofs.Store.AtHand -- a table that a transaction can read and fill

A table is at hand for a transaction if no other one has a lock, every page of the table can be
read, and there are frames for all of its pages beside those that wait to be written
(`AtHand`).  Nothing is said of other tables, whose files may be corrupt.

Then each page is read when it is asked for (`AtHand.readPage`), and a row goes to the first
free slot if there is one (`AtHand.insertRow`).  Either leaves the table at hand.
-/
import RowStore.Proofs.Store.Alone
import RowStore.Proofs.Store.Filling

namespace RowStore

set_option autoImplicit false

open Store StoreAction RowStore.Action

variable {txn : TxnId} {s after : Store} {file : TableFile} {number : Nat}

/-- Nothing keeps the transaction from reading the pages of the table and changing them. -/
structure Store.AtHand (s : Store) (txn : TxnId) (file : TableFile) : Prop where
  legible : s.Legible file
  readable : ∀ number, number < s.pageCount file → ∃ page, s.pageFor txn file number = .ok page
  locks : ∀ page, LockTable.others (s.locks.holders page) txn = []
  frames : ∃ busy : List PageId, busy.length + s.pageCount file < s.pool.capacity ∧
    ∀ id frame, s.pool.resident? id = some frame → frame.page.mark ≠ none →
      id.table = file.id ∨ id ∈ busy

/-- What is stored on a page can be written again. -/
theorem Page.encode_of_at? {page : Page} {slot : Nat} {values : List Value}
    (stored : page.at? slot = some values) : ∃ bytes, page.schema.encode values = .ok bytes := by
  unfold at? at stored
  split at stored
  · cases decoded : page.values slot with
    | error fault =>
        rw [decoded] at stored
        cases stored
    | ok read =>
        rw [decoded] at stored
        cases stored
        rw [values_eq] at decoded
        obtain ⟨-, bytes, fits, -⟩ := Schema.encode_of_decode decoded
        exact ⟨bytes, fits⟩
  · cases stored

namespace Store.AtHand

theorem unhindered (atHand : s.AtHand txn file) : s.Unhindered txn := by
  obtain ⟨busy, few, listed⟩ := atHand.frames
  let own := (List.range (s.pageCount file)).map fun number => (⟨file.id, number⟩ : PageId)
  refine ⟨atHand.locks, busy ++ own, ?_, fun id frame there marked => List.mem_append.2 ?_⟩
  · rw [List.length_append, List.length_map, List.length_range]
    exact few
  · rcases listed id frame there marked with here | other
    · obtain ⟨table, number⟩ := id
      obtain rfl : table = file.id := here
      refine Or.inr (List.mem_map.2 ⟨number, List.mem_range.2 ?_, rfl⟩)
      by_contra past
      rw [atHand.legible.not_resident (Nat.not_lt.1 past)] at there
      cases there
    · exact Or.inl other

/-! ## Reading -/

theorem reads (atHand : s.AtHand txn file) (reads : s.Reads txn after) :
    after.AtHand txn file := by
  have count : after.pageCount file = s.pageCount file := (views_congr reads.disk file).2.1
  obtain ⟨busy, few, listed⟩ := atHand.frames
  refine ⟨atHand.legible.reads reads, fun number inside => ?_, fun page => ?_, busy, ?_,
    fun id frame there marked => ?_⟩
  · rw [count] at inside
    rw [pageFor_reads reads]
    exact atHand.readable number inside
  · rw [others_of_walks reads.walk, atHand.locks]
  · rw [count, Walks.capacity reads.walk]
    exact few
  · exact listed id frame (resident_of_walks reads.walk there marked) marked

/-- **Every page** of the table can be read. -/
theorem readPage (atHand : s.AtHand txn file) (inside : number < s.pageCount file)
    (mode : LockMode) : ∃ frame mid,
      StoreAction.readPage txn ⟨file.id, number⟩ mode s = (.ok frame, mid) ∧ s.Reads txn mid ∧
        s.pageFor txn file number = .ok frame.page := by
  have legible := atHand.legible
  obtain ⟨frame, mid, read⟩ : ∃ frame mid,
      StoreAction.readPage txn ⟨file.id, number⟩ mode s = (.ok frame, mid) := by
    cases there : s.pool.resident? ⟨file.id, number⟩ with
    | some frame =>
        obtain ⟨mid, acquired⟩ := acquire_isOk atHand.unhindered ⟨⟨file.id, number⟩, mode⟩
        obtain ⟨-, pool, -⟩ := acquire_spec acquired
        refine ⟨frame, { mid with pool := (mid.pool.lookup ⟨file.id, number⟩).2 }, ?_⟩
        unfold StoreAction.readPage fetch
        rw [bind_apply, acquired]
        simp only
        rw [bind_apply, lookup_apply, pool, there]
        rfl
    | none =>
        obtain ⟨page, found⟩ := atHand.readable number inside
        rw [legible.pageFor_of_absent there] at found
        exact readPage_isOk legible.mirrored.pool atHand.unhindered legible.registered found mode
  have reads := (readPage_spec legible.mirrored.pool read).1
  exact ⟨frame, mid, read, reads, (legible.pageFor_of_readPage read).2⟩

/-- What is seen in the table can be written again. -/
theorem encode_of_seen (atHand : s.AtHand txn file) {id : RecordId} {values : List Value}
    (own : id.page.table = file.id) (seen : s.seen txn id = some values) :
    ∃ bytes, file.schema.encode values = .ok bytes := by
  obtain ⟨⟨table, number⟩, slot⟩ := id
  obtain rfl : table = file.id := own
  obtain ⟨page, found⟩ := atHand.readable number (atHand.legible.seen_inside seen rfl)
  obtain ⟨-, schema, -, -⟩ := atHand.legible.shape found
  rw [seen_row atHand.legible.registered, found] at seen
  exact schema ▸ Page.encode_of_at? seen

/-! ## Inserting -/

variable {values : List Value} {bytes : List UInt8}

/-- A row that fits is stored on some page, or all pages are passed over. -/
theorem insertOnPages_isOk (atHand : s.AtHand txn file)
    (fits : file.schema.encode values = .ok bytes) {pages : List Nat}
    (inside : ∀ number ∈ pages, number < s.pageCount file) :
    ∃ stored after, insertOnPages file txn values pages s = (.ok stored, after) := by
  induction pages generalizing s with
  | nil => exact ⟨none, s, rfl⟩
  | cons number rest ih =>
      have consistent := atHand.legible.mirrored.pool
      obtain ⟨frame, mid, read, reads, found⟩ :=
        atHand.readPage (inside number List.mem_cons_self) .exclusive
      obtain ⟨next, tried, -, there, -, replaces⟩ :=
        changePage_of_read consistent (insertIfRoom_id txn values) read
      rw [insertOnPages, bind_apply]
      by_cases full : frame.page.freeCount = 0
      · rw [insertIfRoom_full txn full] at tried replaces
        rw [tried]
        have passed := reads.trans (replaces.reads there)
        have count : next.pageCount file = s.pageCount file := (views_congr passed.disk file).2.1
        exact ih (atHand.reads passed)
          (by rw [count]; exact fun n member => inside n (List.mem_cons_of_mem _ member))
      · obtain ⟨-, schema, -, -⟩ := atHand.legible.shape found
        obtain ⟨id, page, done⟩ := Page.insert_isOk (schema ▸ fits) full
        rw [insertIfRoom_isOk txn full done] at tried
        rw [tried]
        exact ⟨_, _, rfl⟩

/-- A row that fits is stored if there is a free slot. -/
theorem insertRow_isOk (atHand : s.AtHand txn file) (fits : file.schema.encode values = .ok bytes)
    {free : RecordId} (place : s.HasSlot file free) (none : s.seen txn free = none) :
    ∃ id after, StoreAction.insertRow txn file.id values s = (.ok id, after) := by
  have legible := atHand.legible
  have inside : ∀ number ∈ List.range (s.pageCount file), number < s.pageCount file :=
    fun _ => List.mem_range.1
  obtain ⟨stored, mid, tried⟩ := atHand.insertOnPages_isOk fits inside
  cases stored with
  | none =>
      rw [List.range_eq_range'] at tried
      rcases insertOnPages_tried legible tried with
        ⟨-, -, full⟩ | ⟨_, _, reply, -, -, -, -, -, same⟩
      · have used := legible.allUsed_of_full (fun lower below => full lower (Nat.zero_le _)
          (by omega)) free place
        rw [none] at used
        cases used
      · cases reply <;> cases same
  | some stored =>
      obtain ⟨id, changed⟩ := stored
      have inserted : insertInFile file txn values s = (.ok (id, changed), mid) := by
        unfold insertInFile
        rw [bind_apply, ofExcept_apply, (Schema.encode_eq_ok_iff.1 fits).1]
        simp only [Except.mapError]
        rw [bind_apply, get_apply]
        simp only
        rw [bind_apply, tried]
        rfl
      rcases insertInFile_tried legible inserted with
        ⟨cause, -, same, -⟩ | ⟨-, number, base, -, -, tried⟩
      · cases same
      cases tried with
      | @stored frame _ page _ _ _ _ _ changes =>
          rcases marked : markChanged txn { frame with page := page.withMark (some txn) } mid with
            ⟨answer, last⟩
          obtain ⟨rfl, -⟩ := markChanged_changes changes marked
          refine ⟨id, last, ?_⟩
          unfold StoreAction.insertRow
          simp only [tableFile, bind_apply, query_apply, legible.registered, Except.mapError,
            inserted, marked]
          rfl

/-- A page of the table that is changed can still be read. -/
theorem changes (atHand : s.AtHand txn file) {frame : Frame} {page : Page}
    (own : frame.id = ⟨file.id, number⟩)
    (changes : Changes txn s after frame (page.withMark (some txn))) (legible : after.Legible file) :
    after.AtHand txn file := by
  obtain ⟨mid, reads, -, -, replaces⟩ := changes
  obtain ⟨-, readable, locks, busy, few, listed⟩ := atHand.reads reads
  obtain ⟨held, disk⟩ : after.locks = mid.locks ∧ after.disk = mid.disk := by
    obtain ⟨pool, rfl⟩ := replaces.store
    exact ⟨rfl, rfl⟩
  have count : after.pageCount file = mid.pageCount file := (views_congr disk file).2.1
  refine ⟨legible, fun other inside => ?_, fun page => held ▸ locks page, busy, ?_,
    fun id now found marked => ?_⟩
  · rw [pageFor]
    by_cases here : (⟨file.id, other⟩ : PageId) = frame.id
    · have drafted : after.draft txn ⟨file.id, other⟩ = some (page.withMark (some txn)) :=
        draft_eq_some_iff.2 ⟨_, (replaces.residents _).trans (if_pos here), rfl, rfl⟩
      exact ⟨_, by rw [drafted]⟩
    · have same : after.draft txn ⟨file.id, other⟩ = mid.draft txn ⟨file.id, other⟩ := by
        unfold draft unwritten
        rw [replaces.residents, if_neg here]
      rw [same, filePage_congr disk]
      exact readable other (count ▸ inside)
  · rw [count, replaces.capacity]
    exact few
  · rcases replaces.resident_cases found with ⟨rfl, -⟩ | ⟨-, before⟩
    · exact Or.inl (by rw [own])
    · exact listed id now before marked

/-- **A row that fits** goes to the first free slot, if there is one.  The file stays as it is,
and the table at hand. -/
theorem insertRow (atHand : s.AtHand txn file) (fits : file.schema.encode values = .ok bytes)
    {free : RecordId} (place : s.HasSlot file free) (none : s.seen txn free = none) :
    ∃ id after, StoreAction.insertRow txn file.id values s = (.ok id, after) ∧
      after.AtHand txn file ∧ after.disk = s.disk ∧ id ≤ free ∧
        (s.seen txn).LeastFree file id ∧ s.EditShows after txn (.insert id values) := by
  obtain ⟨id, after, run⟩ := atHand.insertRow_isOk fits place none
  obtain ⟨legible, least, shows⟩ := atHand.legible.insertRow run
  refine ⟨id, after, run, ?_, ?_, least.least free place.table place.slot none, least, shows⟩
  · rcases insertRow_tried atHand.legible run with
      ⟨_, -, same, -⟩ | ⟨-, number, base, reply, comes, full, tried, same⟩
    · cases same
    cases tried with
    | stopped => cases same
    | refused => cases same
    | stored _ own _ _ changes =>
        cases comes with
        | old reads => exact (atHand.reads reads).changes own changes legible
        | new =>
            have used := atHand.legible.allUsed_of_full full free place
            rw [none] at used
            cases used
  · cases (atHand.legible.insert_allots run).1 with
    | first _ disk => exact disk
    | appended used =>
        have taken := used free place
        rw [none] at taken
        cases taken

end Store.AtHand

/-! ## Tables without unwritten changes -/

namespace Store.Legible

/-- A page that nobody has changed is seen as it lies in the file. -/
theorem pageFor_of_written (legible : s.Legible file)
    (written : ∀ frame, s.pool.resident? ⟨file.id, number⟩ = some frame → frame.page.mark = none) :
    s.pageFor txn file number = s.readFromDisk file ⟨file.id, number⟩ := by
  have clean : s.draft txn ⟨file.id, number⟩ = none := by
    refine draft_eq_none_iff.2 fun frame there marked => ?_
    rw [written frame there] at marked
    cases marked
  rw [pageFor, clean]
  exact (readFromDisk_eq_filePage legible.fits number).symm

variable (written : ∀ number frame, s.pool.resident? ⟨file.id, number⟩ = some frame →
  frame.page.mark = none)

include written

/-- The rows that are read from disk are those that the transaction sees. -/
theorem lists_of_decodePages (legible : s.Legible file) {pages : List Nat} {rows : List Row}
    (decoded : s.decodePages file pages = .ok rows) :
    (s.seen txn).Lists file.id pages rows ∧
      ∀ number ∈ pages, ∃ page, s.pageFor txn file number = .ok page := by
  induction pages generalizing rows with
  | nil =>
      cases decoded
      exact ⟨.none, nofun⟩
  | cons number rest ih =>
      rw [decodePages] at decoded
      have same : s.pageFor txn file number = _ := legible.pageFor_of_written (written number)
      cases read : s.readFromDisk file ⟨file.id, number⟩ with
      | error fault =>
          rw [read] at decoded
          cases decoded
      | ok page =>
          rw [read] at decoded same
          simp only at decoded
          split at decoded <;> cases decoded
          rename_i front back first later
          obtain ⟨named, -, -, sound⟩ := legible.shape same
          obtain ⟨lists, found⟩ := ih later
          refine ⟨.page ?_ lists, List.forall_mem_cons.2 ⟨⟨page, same⟩, found⟩⟩
          rw [← named]
          refine Contents.pageListing_rows sound (fun slot => ?_) first
          rw [named, seen_row legible.registered, same]

/-- **A table that can be decoded**, and has no unwritten changes, is at hand for a transaction
that is alone and has frames enough. -/
theorem atHand (legible : s.Legible file) {rows : List Row}
    (locks : ∀ page, LockTable.others (s.locks.holders page) txn = [])
    (frames : ∃ busy : List PageId, busy.length + s.pageCount file < s.pool.capacity ∧
      ∀ id frame, s.pool.resident? id = some frame → frame.page.mark ≠ none → id ∈ busy)
    (decoded : s.decodeFile file = .ok rows) :
    s.AtHand txn file ∧ (s.seen txn).Listing file.id rows := by
  obtain ⟨busy, few, listed⟩ := frames
  obtain ⟨lists, found⟩ : (s.seen txn).Lists file.id (List.range (s.pageCount file)) rows ∧
      ∀ number ∈ List.range (s.pageCount file), ∃ page, s.pageFor txn file number = .ok page :=
    legible.lists_of_decodePages written decoded
  refine ⟨⟨legible, fun number inside => found number (List.mem_range.2 inside), locks, busy, few,
    fun id frame there marked => Or.inr (listed id frame there marked)⟩, ?_⟩
  exact lists.listing fun id values seen own => legible.seen_inside seen own

end Store.Legible

end RowStore
