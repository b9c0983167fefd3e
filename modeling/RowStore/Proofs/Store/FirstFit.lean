/-
# RowStore.Proofs.Store.FirstFit -- the slots that inserts and deletes change

A row that is inserted goes to the first slot that its transaction sees free, and the file gets
no longer unless there is none (`Allots`).  A delete empties the slot that it is told, if its
transaction sees a row there, and else changes nothing (`Frees`).  Nobody else sees either
before the transaction has ended.

Both hold as long as all pages of the file are counted (`Reachable.first_fit`), and no longer
(`first_fit_uncounted`).
-/
import RowStore.Proofs.Store.Attempts

namespace RowStore

set_option autoImplicit false

/-- The slots on each page of a table. -/
def TableFile.slots (file : TableFile) : Nat := slotCount file.pageSize file.schema.rowBytes

namespace Store

variable {txn : TxnId} {s mid after : Store} {file : TableFile} {number : Nat}
  {values : List Value} {id : RecordId}

/-! ## Slots -/

/-- A slot of a page that is counted. -/
structure HasSlot (s : Store) (file : TableFile) (id : RecordId) : Prop where
  table : id.page.table = file.id
  page : id.page.number < s.pageCount file
  slot : id.slot < file.slots

/-- The least id of which the transaction sees the slot free. -/
structure FirstFree (s : Store) (txn : TxnId) (file : TableFile) (id : RecordId) : Prop where
  place : s.HasSlot file id
  free : s.seen txn id = none
  least : ∀ other, s.HasSlot file other → s.seen txn other = none → id ≤ other

/-- The transaction sees a row in every slot. -/
def AllUsed (s : Store) (txn : TxnId) (file : TableFile) : Prop :=
  ∀ id, s.HasSlot file id → (s.seen txn id).isSome = true

/-- The place of a new row. -/
inductive Allots (s after : Store) (txn : TxnId) (file : TableFile) (id : RecordId) : Prop where
  | first (free : s.FirstFree txn file id) (disk : after.disk = s.disk)
  | appended (used : s.AllUsed txn file) (new : id = ⟨⟨file.id, s.pageCount file⟩, 0⟩)
      (disk : after.disk = (s.grown file).disk)
      (longer : after.wholePages file = s.wholePages file + 1)
      (counted : after.pageCount file = s.pageCount file + 1)

theorem Legible.slots_eq (legible : s.Legible file) {page : Page}
    (found : s.pageFor txn file number = .ok page) : page.slots = file.slots := by
  obtain ⟨-, schema, size, -⟩ := legible.shape found
  rw [Page.slots, TableFile.slots, schema, size]

theorem Legible.seen_isSome_iff (legible : s.Legible file) {page : Page}
    (found : s.pageFor txn file number = .ok page) {slot : Nat} :
    (s.seen txn ⟨⟨file.id, number⟩, slot⟩).isSome = true ↔ page.isUsed slot = true := by
  obtain ⟨-, -, -, sound⟩ := legible.shape found
  rw [seen_row legible.registered, found]
  exact sound.isSome_at?

theorem Legible.seen_of_full (legible : s.Legible file)
    (full : StoreAction.FullFor s txn file number) {slot : Nat} (inside : slot < file.slots) :
    (s.seen txn ⟨⟨file.id, number⟩, slot⟩).isSome = true := by
  obtain ⟨page, found, none⟩ := full
  rw [← legible.slots_eq found] at inside
  exact (legible.seen_isSome_iff found).2 (Page.freeCount_eq_zero_iff.1 none slot inside)

/-- All slots are used if all pages are full. -/
theorem Legible.allUsed_of_full (legible : s.Legible file)
    (full : ∀ lower, lower < s.pageCount file → StoreAction.FullFor s txn file lower) :
    s.AllUsed txn file := by
  rintro ⟨⟨table, number⟩, slot⟩ ⟨rfl, page, inside⟩
  exact legible.seen_of_full (full number page) inside

/-- The least id is on the first page that is not full. -/
theorem Legible.firstFree (legible : s.Legible file) {page stored : Page}
    (inside : number < s.pageCount file)
    (full : ∀ lower, lower < number → StoreAction.FullFor s txn file lower)
    (found : s.pageFor txn file number = .ok page) (done : page.insert values = .ok (id, stored)) :
    s.FirstFree txn file id := by
  obtain ⟨named, -, -, sound⟩ := legible.shape found
  obtain ⟨own, within, free, below, -⟩ := sound.insert done
  obtain ⟨home, slot⟩ := id
  obtain rfl : home = ⟨file.id, number⟩ := own.trans named
  refine ⟨⟨rfl, inside, by rwa [legible.slots_eq found] at within⟩, ?_, ?_⟩
  · rw [← Option.not_isSome_iff_eq_none, legible.seen_isSome_iff found, Page.isUsed_iff]
    rintro ⟨-, used⟩
    rw [free] at used
    cases used
  · rintro ⟨⟨table, page_number⟩, other⟩ ⟨rfl, -, bound⟩ none
    rcases Nat.lt_trichotomy page_number number with lower | rfl | higher
    · have some := legible.seen_of_full (full page_number lower) bound
      rw [none] at some
      cases some
    · rcases Nat.lt_trichotomy other slot with lower | rfl | higher
      · have used : page.isUsed other = true := Page.isUsed_iff.2 ⟨Nat.lt_trans lower within,
          below other lower⟩
        rw [← legible.seen_isSome_iff found, none] at used
        cases used
      · exact Or.inr rfl
      · exact Or.inl (Or.inr ⟨rfl, higher⟩)
    · exact Or.inl (Or.inl (Or.inr ⟨rfl, higher⟩))

/-- The change of a page shows as the edit of its one row. -/
theorem Legible.shows (legible : s.Legible file) {frame : Frame} {page : Page} {e : Edit}
    (own : frame.id = ⟨file.id, number⟩) (found : s.pageFor txn file number = .ok frame.page)
    (changes : Changes txn s after frame (page.withMark (some txn)))
    (here : e.id.page = frame.id) (alters : frame.page.Alters page e.id.slot e.entry) :
    s.EditShows after txn e := by
  obtain ⟨mid, reads, there, owned, replaces⟩ := changes
  have still := legible.reads reads
  have tables := legible.mirrored.tables
  have listed : mid.catalog.file frame.id.table = .ok file := by rw [own]; exact still.registered
  have sight : mid.pageFor txn file frame.id.number = .ok frame.page := by
    rw [own, pageFor_reads reads, found]
  have edited := seen_replaces still.mirrored.toOrderly listed there ⟨_, owned⟩ sight replaces here
    alters.at?
  exact edited.of_seen fun _ => seen_reads tables reads

/-! ## Inserting -/

/-- **First fit.**  A row goes to the first slot that the transaction sees free, or to the
first slot of a new page if there is none. -/
theorem Legible.insert_allots (legible : s.Legible file)
    (run : StoreAction.insertRow txn file.id values s = (.ok id, after)) :
    s.Allots after txn file id ∧ s.EditShows after txn (.insert id values) := by
  rcases StoreAction.insertRow_tried legible run with
    ⟨cause, -, same, -⟩ | ⟨-, number, base, reply, comes, full, tried, same⟩
  · cases same
  cases tried with
  | stopped => cases same
  | refused => cases same
  | @stored frame id stored _ sight own found done changes =>
      cases same
      obtain ⟨named, -, -, sound⟩ := sight.shape found
      obtain ⟨place, -, -, below, alters⟩ := sound.insert done
      have here : (Edit.insert id values).id.page = frame.id := by
        rw [own, ← named]
        exact place
      have shows := sight.shows own found changes here alters
      have disk : after.disk = base.disk := changes.disk
      have tables := legible.mirrored.tables
      cases comes with
      | old reads inside =>
          rw [pageFor_reads reads] at found
          exact ⟨.first (legible.firstFree inside full found done) (disk.trans reads.disk),
            shows.of_seen fun _ => seen_reads tables reads⟩
      | @new mid reads =>
          have still := legible.reads reads
          have count : mid.pageCount file = s.pageCount file := (views_congr reads.disk file).2.1
          have grown : after.disk = (s.grown file).disk :=
            disk.trans (disk_grown_congr reads.disk file)
          have longer : after.wholePages file = s.wholePages file + 1 := by
            rw [(views_congr grown file).1, legible.wholePages_grown]
          have counted : after.pageCount file = s.pageCount file + 1 := by
            rw [(views_congr disk file).2.1, sight.pageCount_eq, ← (views_congr disk file).1,
              longer, legible.pageCount_eq]
          rw [← count, still.pageFor_grown, Except.ok.injEq] at found
          have first : id.slot = 0 := by
            -- A lower slot would have to be used, and on an empty page none is.
            by_contra some
            have used := below 0 (Nat.pos_of_ne_zero some)
            rw [← found, Image.bit_zeros] at used
            cases used
          have new : id = ⟨⟨file.id, s.pageCount file⟩, 0⟩ := by
            rw [← first, ← named, ← place]
          refine ⟨.appended (legible.allUsed_of_full full) new grown longer counted,
            shows.of_seen fun _ => ?_⟩
          rw [still.seen_grown, seen_reads tables reads]

/-- An insert that fails changes nothing that anyone sees, and may leave an empty page behind
those of the file if they are all full. -/
theorem Legible.insert_error (legible : s.Legible file) {stop : Stop}
    (run : StoreAction.insertRow txn file.id values s = (.error stop, after)) :
    (∀ page, after.unwritten page = s.unwritten page) ∧
      (∀ owner, after.seen owner = s.seen owner) ∧
        (after.disk = s.disk ∨ s.AllUsed txn file ∧ after.disk = (s.grown file).disk) := by
  rcases StoreAction.insertRow_tried legible run with
    ⟨cause, -, same, rfl⟩ | ⟨-, number, base, reply, comes, full, tried, same⟩
  · exact ⟨fun _ => rfl, fun _ => rfl, Or.inl rfl⟩
  have tables := legible.mirrored.tables
  have last : base.Reads txn after := by
    cases tried with
    | stopped reads => exact reads
    | refused reads => exact reads
    | stored => cases same
  cases comes with
  | old reads =>
      have all := reads.trans last
      exact ⟨unwritten_walks all.walk, fun _ => seen_reads tables all, Or.inl all.disk⟩
  | @new mid reads =>
      have still := legible.reads reads
      have proper : (mid.grown file).catalog.Proper := still.mirrored.tables
      refine ⟨fun page => ?_, fun owner => ?_, Or.inr ⟨legible.allUsed_of_full full,
        last.disk.trans (disk_grown_congr reads.disk file)⟩⟩
      · rw [unwritten_walks last.walk, ← unwritten_walks reads.walk]
        rfl
      · rw [seen_reads proper last, still.seen_grown, seen_reads tables reads]

/-! ## Deleting -/

/-- How a delete ends that nothing hinders. -/
structure Frees (s after : Store) (txn : TxnId) (file : TableFile) (id : RecordId)
    (answer : Except Stop Unit) : Prop where
  disk : after.disk = s.disk
  ok_iff : answer = .ok () ↔ (s.seen txn id).isSome = true
  freed : answer = .ok () → s.EditShows after txn (.delete id)
  kept : answer ≠ .ok () → ∀ page, after.unwritten page = s.unwritten page
  /-- The row is not found, unless its page lies corrupt in the file. -/
  missing : answer ≠ .ok () → answer = .error (.fault (.rowNotFound id)) ∨
    ∃ cause, s.filePage file id.page.number = .error (.corruptPage id.page cause) ∧
      answer = .error (.fault (.corruptPage id.page cause))

/-- A delete that fails has found no row and changed nothing. -/
theorem frees_of_error {stop : Stop} (disk : after.disk = s.disk) (free : s.seen txn id = none)
    (kept : ∀ page, after.unwritten page = s.unwritten page)
    (missing : stop = .fault (.rowNotFound id) ∨
      ∃ cause, s.filePage file id.page.number = .error (.corruptPage id.page cause) ∧
        stop = .fault (.corruptPage id.page cause)) :
    s.Frees after txn file id (.error stop) := by
  refine ⟨disk, ?_, ?_, fun _ => kept, ?_⟩
  · rw [free]
    apply iff_of_false <;> intro done <;> cases done
  · intro done
    cases done
  · intro _
    rcases missing with rfl | ⟨cause, corrupt, rfl⟩
    · exact Or.inl rfl
    · exact Or.inr ⟨cause, corrupt, rfl⟩

/-- Deleting a row of its own page fails only for a free slot. -/
theorem delete_own_error {page : Page} {fault : Fault} (own : id.page = page.id)
    (failed : page.delete id = .error fault) :
    page.isUsed id.slot = false ∧ StoreAction.noRowAt id fault = .rowNotFound id := by
  unfold Page.isUsed
  rcases page.delete_cases id with ⟨foreign, -⟩ | ⟨-, ⟨past, run⟩ | ⟨-, ⟨free, run⟩ | ⟨-, run⟩⟩⟩
  · exact absurd own foreign
  · cases run.symm.trans failed
    exact ⟨by simp [Nat.not_lt.2 past], rfl⟩
  · cases run.symm.trans failed
    exact ⟨by rw [free, Bool.and_false], rfl⟩
  · cases run.symm.trans failed

/-- **A delete** that nothing hinders empties its slot if the transaction sees a row there, and
else changes nothing. -/
theorem Legible.delete_frees (legible : s.Legible file) {row : Row} {answer : Except Stop Unit}
    (named : row.id? = some id) (own : id.page.table = file.id)
    (run : StoreAction.deleteRow txn row s = (answer, after))
    (free : ∀ stop, answer = .error stop → ¬ stop.Hindered) :
    s.Frees after txn file id answer := by
  obtain ⟨⟨table, number⟩, slot⟩ := id
  obtain rfl : table = file.id := own
  have row : s.seen txn ⟨⟨file.id, number⟩, slot⟩ = _ := seen_row legible.registered number slot
  obtain ⟨reply, erased, rfl⟩ := StoreAction.deleteRow_erased legible named rfl run
  cases erased with
  | uncounted past =>
      rw [legible.pageFor_of_le past] at row
      exact frees_of_error rfl row (fun _ => rfl) (Or.inl rfl)
  | stopped inside reads unreached =>
      cases unreached with
      | hindered hindered => exact absurd hindered (free _ rfl)
      | unread absent failed =>
          have page : s.pageFor txn file number = _ := legible.pageFor_of_absent absent
          rw [page, failed] at row
          obtain ⟨past, -⟩ | ⟨-, cause, rfl⟩ := readFromDisk_own_error legible.proper failed
          · exact absurd inside (Nat.not_lt.2 past)
          rw [readFromDisk_eq_filePage legible.fits] at failed
          exact frees_of_error reads.disk row (unwritten_walks reads.walk)
            (Or.inr ⟨cause, failed, rfl⟩)
  | refused reads found refused =>
      obtain ⟨named, -, -, sound⟩ := legible.shape found
      obtain ⟨unused, missing⟩ := delete_own_error named.symm refused
      have none : s.seen txn ⟨⟨file.id, number⟩, slot⟩ = none := by
        rw [← Option.not_isSome_iff_eq_none, legible.seen_isSome_iff found, unused]
        exact Bool.noConfusion
      rw [missing]
      exact frees_of_error reads.disk none (unwritten_walks reads.walk) (Or.inl rfl)
  | done here found done changes =>
      obtain ⟨named, -, -, sound⟩ := legible.shape found
      obtain ⟨-, used, alters⟩ := sound.delete done
      have some := (legible.seen_isSome_iff found).2 used
      have shows : s.EditShows after txn (.delete ⟨⟨file.id, number⟩, slot⟩) :=
        legible.shows here found changes here.symm alters
      refine ⟨changes.disk, ?_, fun _ => shows, ?_, ?_⟩
      · exact iff_of_true rfl some
      · intro failed
        exact absurd rfl failed
      · intro failed
        exact absurd rfl failed

/-! ## Reachable stores -/

theorem Reachable.legible (reachable : s.Reachable) {table : TableId}
    (registered : s.catalog.file table = .ok file)
    (counted : s.wholePages file < PageFile.pageLimit) : s.Legible file ∧ file.id = table := by
  have own := (reachable.orderly.tables table file registered).1
  exact ⟨⟨reachable.mirrored, own ▸ registered, counted⟩, own⟩

/-- **Inserts and deletes.**  In a reachable store, a row that is inserted takes the first free
slot of the table, in a new page only if there is none.  A delete that nothing hinders empties
the slot that the row's id names, if there is a row.  For all others, and in all other slots,
everything stays as it was. -/
theorem Reachable.first_fit (reachable : s.Reachable) {table : TableId}
    (registered : s.catalog.file table = .ok file)
    (counted : s.wholePages file < PageFile.pageLimit) (txn : TxnId) :
    (∀ values id after, StoreAction.insertRow txn table values s = (.ok id, after) →
        s.Allots after txn file id ∧ s.EditShows after txn (.insert id values)) ∧
      ∀ row id answer after, row.id? = some id → id.page.table = table →
        StoreAction.deleteRow txn row s = (answer, after) →
          (∀ stop, answer = .error stop → ¬ stop.Hindered) → s.Frees after txn file id answer := by
  obtain ⟨legible, rfl⟩ := reachable.legible registered counted
  exact ⟨fun values id after run => legible.insert_allots run,
    fun row id answer after named own run free => legible.delete_frees named own run free⟩

/-- The second row goes to a new page, and the first is deleted. -/
theorem first_fit_flagged : flagged.Reachable ∧
    (∃ after, StoreAction.insertRow ⟨2⟩ TableFile.flags.id [.bool true] flagged =
        (.ok ⟨⟨TableFile.flags.id, 1⟩, 0⟩, after) ∧
      flagged.Allots after ⟨2⟩ .flags ⟨⟨TableFile.flags.id, 1⟩, 0⟩) ∧
    ∃ after, StoreAction.deleteRow ⟨2⟩ ⟨some ⟨⟨TableFile.flags.id, 0⟩, 0⟩, []⟩ flagged =
        (.ok (), after) ∧
      flagged.Frees after ⟨2⟩ .flags ⟨⟨TableFile.flags.id, 0⟩, 0⟩ (.ok ()) := by
  have inserted : (StoreAction.insertRow ⟨2⟩ TableFile.flags.id [.bool true] flagged).1 =
      .ok ⟨⟨TableFile.flags.id, 1⟩, 0⟩ := by cbv
  have deleted : (StoreAction.deleteRow ⟨2⟩ ⟨some ⟨⟨TableFile.flags.id, 0⟩, 0⟩, []⟩ flagged).1 =
      .ok () := by cbv
  have listed : flagged.catalog.file TableFile.flags.id = .ok .flags := by cbv
  have whole : flagged.wholePages .flags = 1 := by cbv
  obtain ⟨inserts, deletes⟩ := reachable_flagged.first_fit listed (by rw [whole]; decide) ⟨2⟩
  have stored := Prod.fst_eq_iff.1 inserted
  have erased := Prod.fst_eq_iff.1 deleted
  exact ⟨reachable_flagged, ⟨_, stored, (inserts _ _ _ stored).1⟩, _, erased,
    deletes ⟨some ⟨⟨TableFile.flags.id, 0⟩, 0⟩, []⟩ _ _ _ rfl rfl erased
      fun _ stopped => by cases stopped⟩

/-- An insert after which no page is counted has taken no row from anyone's sight. -/
theorem Legible.seen_uncounted (legible : s.Legible file) {answer : Except Stop RecordId}
    (run : StoreAction.insertRow txn file.id values s = (answer, after))
    (some : 0 < s.pageCount file) (zero : after.pageCount file = 0) (owner : TxnId) :
    after.seen owner = s.seen owner := by
  cases answer with
  | error stop => exact (legible.insert_error run).2.1 owner
  | ok id =>
      cases (legible.insert_allots run).1 with
      | first _ disk =>
          rw [(views_congr disk file).2.1] at zero
          omega
      | appended _ _ _ _ counted => omega

/-- **Rows that cannot be deleted.**  When a file has as many pages as there are page numbers,
rows that everyone sees are not found any more. -/
theorem first_fit_uncounted : ∃ s row id, Reachable s ∧
    s.catalog.file TableFile.flags.id = .ok .flags ∧ row.id? = some id ∧
      id.page.table = TableFile.flags.id ∧ (s.seen ⟨2⟩ id).isSome = true ∧
        StoreAction.deleteRow ⟨2⟩ row s = (.error (.fault (.rowNotFound id)), s) := by
  obtain ⟨last, limit⟩ : ∃ last, last + 1 = PageFile.pageLimit := ⟨UInt32.size - 1, rfl⟩
  have some : 0 < last := by
    have many : 1 < PageFile.pageLimit := by decide
    omega
  have ready := Recorded.ready_repeated fresh_flags registered_flags TableFile.encode_flags
  have loaded := Recorded.loaded_fill (n := last) fresh_flags registered_flags
    TableFile.slotCount_flags TableFile.encode_flags ⟨1⟩ (by omega)
  have before := Recorded.reachable_run fresh_flags
    (Recorded.fill ⟨1⟩ TableFile.flags.id [.bool true] last)
  obtain ⟨after, stepped, zero, id, -, listed, -⟩ :=
    Recorded.overrun_of_loaded ready loaded ⟨1⟩ TableFile.slotCount_flags limit
  replace stepped := congrArg Recorded.store stepped
  rw [store_step] at stepped
  generalize Recorded.run .flags (Recorded.fill ⟨1⟩ TableFile.flags.id [.bool true] last) = r
    at loaded before stepped
  have ended : r.store.carryOut ⟨1⟩ (.insert TableFile.flags.id [.bool true]) = after := stepped
  have registered : r.store.catalog.file TableFile.flags.id = .ok .flags := loaded.registered ready
  have whole : r.store.wholePages .flags = last := by
    have pages := loaded.pages
    have slots : (Recorded.repeated .flags .flags [.bool true]).slots = 1 :=
      TableFile.slotCount_flags
    rw [slots, ceilDiv_of_dvd Nat.one_pos (Nat.one_dvd last), Nat.div_one] at pages
    exact pages
  obtain ⟨legible, -⟩ := before.legible registered (by omega)
  -- The row was seen before the last insert, and nobody has lost it from sight.
  have row : r.store.seen ⟨2⟩ ⟨⟨TableFile.flags.id, 0⟩, 0⟩ = Option.some [.bool true] := by
    rw [loaded.calm.agrees.seen_eq loaded.calm.orderly loaded.calm.bounded, Ledger.view,
      loaded.settled, loaded.committed]
    exact Recorded.contents_repeated TableFile.slotCount_flags some
  have counted : 0 < r.store.pageCount .flags := by rwa [legible.pageCount_eq, whole]
  have reached : after.Reachable := ended ▸ before.called ⟨1⟩ _
  have known : after.catalog.file TableFile.flags.id = .ok .flags := by
    rw [(reached.orderly.tables _ _ listed).1]
    exact listed
  have kept : after.seen ⟨2⟩ = r.store.seen ⟨2⟩ := by
    subst ended
    exact legible.seen_uncounted (Prod.fst_eq_iff.1 rfl) counted zero ⟨2⟩
  refine ⟨after, ⟨Option.some ⟨⟨TableFile.flags.id, 0⟩, 0⟩, []⟩, _, reached, known, rfl, rfl, ?_,
    StoreAction.deleteRow_uncounted ⟨2⟩ known rfl rfl (by rw [zero])⟩
  rw [kept, row]
  rfl

end Store

end RowStore
