/-
# RowStore.Proofs.Store.Sight -- a table as a transaction sees it

A transaction sees a page with its own changes, and else as the file has it (`pageFor`).
The rows of all tables as it sees them are `seen`.  Neither asks how many pages of the file
are counted, so what is said here of the rows does not hide behind that count.

A page that is read under a lock is the page that the transaction sees
(`pageFor_of_readPage`).  What others read, and the growth of a file, leave every sight as it
is (`seen_reads`, `seen_grown`), and an edit shows in that of its transaction only
(`seen_replaces`).  A ledger that agrees with the store has the same rows
(`Ledger.Agrees.seen_eq`).
-/
import RowStore.Proofs.Store.Faithful

namespace RowStore

set_option autoImplicit false

open Relation

namespace Store

variable {txn owner : TxnId} {s mid after : Store} {file : TableFile} {number : Nat}

/-! ## Pages and rows -/

/-- The version of a page that has changes of the transaction. -/
def draft (s : Store) (txn : TxnId) (id : PageId) : Option Page :=
  (s.unwritten id).filter fun page => decide (page.mark = some txn)

/-- A page of a table as it lies in the file. -/
def filePage (s : Store) (file : TableFile) (number : Nat) : Except Fault Page :=
  if number < s.wholePages file then
    Page.load ⟨file.id, number⟩ file.schema (s.imageAt file number)
  else .error (.pageNotFound ⟨file.id, number⟩)

/-- A page of a table as the transaction sees it. -/
def pageFor (s : Store) (txn : TxnId) (file : TableFile) (number : Nat) : Except Fault Page :=
  match s.draft txn ⟨file.id, number⟩ with
  | some page => .ok page
  | none => s.filePage file number

/-- The rows of all tables as the transaction sees them.  A page that cannot be read has
none. -/
def seen (s : Store) (txn : TxnId) : Contents := fun id =>
  match s.catalog.file id.page.table with
  | .error _ => none
  | .ok file =>
      match s.pageFor txn file id.page.number with
      | .ok page => page.at? id.slot
      | .error _ => none

theorem draft_eq_some_iff {id : PageId} {page : Page} : s.draft txn id = some page ↔
    ∃ frame, s.pool.resident? id = some frame ∧ frame.page.mark = some txn ∧ frame.page = page := by
  unfold draft unwritten
  simp only [Option.filter_eq_some_iff, Option.map_eq_some_iff, decide_eq_true_eq]
  constructor
  · rintro ⟨⟨⟨frame, there, rfl⟩, -⟩, marked⟩
    exact ⟨frame, there, marked, rfl⟩
  · rintro ⟨frame, there, marked, rfl⟩
    exact ⟨⟨⟨frame, there, rfl⟩, by rw [Page.isDirty, marked]; rfl⟩, marked⟩

theorem draft_eq_none_iff {id : PageId} : s.draft txn id = none ↔
    ∀ frame, s.pool.resident? id = some frame → frame.page.mark ≠ some txn := by
  rw [Option.eq_none_iff_forall_ne_some]
  constructor
  · intro none frame there marked
    exact none frame.page (draft_eq_some_iff.2 ⟨frame, there, marked, rfl⟩)
  · intro foreign page some
    obtain ⟨frame, there, marked, -⟩ := draft_eq_some_iff.1 some
    exact foreign frame there marked

theorem draft_of_absent {id : PageId} (absent : s.pool.resident? id = none) :
    s.draft txn id = none := by
  refine draft_eq_none_iff.2 fun frame there => ?_
  rw [absent] at there
  cases there

theorem seen_row (registered : s.catalog.file file.id = .ok file) (number slot : Nat) :
    s.seen txn ⟨⟨file.id, number⟩, slot⟩ =
      match s.pageFor txn file number with
      | .ok page => page.at? slot
      | .error _ => none := by
  unfold seen
  simp only [registered]

/-- A row is seen alike where draft, file and tables are the same. -/
theorem seen_congr (tables : s.catalog.Proper) {id : RecordId}
    (catalog : after.catalog = s.catalog)
    (drafted : after.draft owner id.page = s.draft owner id.page)
    (filed : ∀ held number, after.filePage held number = s.filePage held number) :
    after.seen owner id = s.seen owner id := by
  unfold seen
  rw [catalog]
  cases listed : s.catalog.file id.page.table with
  | error fault => rfl
  | ok held =>
      have page : (⟨held.id, id.page.number⟩ : PageId) = id.page := by rw [(tables _ held listed).1]
      simp only [pageFor, page, drafted, filed]

/-! ## Reading -/

/-- No walk touches unwritten changes, whoever has made them. -/
theorem unwritten_walks (walk : s.Walks txn after) (id : PageId) :
    after.unwritten id = s.unwritten id := by
  induction walk with
  | refl => rfl
  | tail _ move ih =>
      cases move with
      | request => exact ih
      | turn _ _ each => exact (each id).unwritten.trans ih
      | grow => exact ih

theorem draft_walks (walk : s.Walks txn after) (id : PageId) :
    after.draft owner id = s.draft owner id := by
  rw [draft, draft, unwritten_walks walk]

theorem filePage_congr (disk : after.disk = s.disk) (file : TableFile) (number : Nat) :
    after.filePage file number = s.filePage file number := by
  unfold filePage wholePages imageAt
  rw [disk]

theorem pageFor_reads (reads : s.Reads txn after) (file : TableFile) (number : Nat) :
    after.pageFor owner file number = s.pageFor owner file number := by
  unfold pageFor
  rw [draft_walks reads.walk, filePage_congr reads.disk]

theorem seen_reads (tables : s.catalog.Proper) (reads : s.Reads txn after) :
    after.seen owner = s.seen owner :=
  funext fun id => seen_congr tables (Walks.grows reads.walk).catalog
    (draft_walks reads.walk id.page) (filePage_congr reads.disk)

/-- As long as all pages are counted, a read from disk gives the page that lies in the
file. -/
theorem readFromDisk_eq_filePage (fits : s.wholePages file < PageFile.pageLimit) (number : Nat) :
    s.readFromDisk file ⟨file.id, number⟩ = s.filePage file number := by
  have all : s.pageCount file = s.wholePages file := Nat.mod_eq_of_lt fits
  unfold readFromDisk TableFile.checkOwner filePage
  rw [if_pos rfl, all]
  by_cases inside : number < s.wholePages file
  · simp only [Nat.not_le.2 inside, inside, if_true, if_false]
    rw [read_pageFile inside]
  · simp only [Nat.not_lt.1 inside, inside, if_true, if_false]

/-- A page of a table that cannot be read from disk lies behind those counted, or is corrupt. -/
theorem readFromDisk_own_error (proper : file.Proper) {fault : Fault}
    (failed : s.readFromDisk file ⟨file.id, number⟩ = .error fault) :
    s.pageCount file ≤ number ∧ fault = .pageNotFound ⟨file.id, number⟩ ∨
      number < s.pageCount file ∧ ∃ cause, fault = .corruptPage ⟨file.id, number⟩ cause := by
  unfold readFromDisk TableFile.checkOwner at failed
  rw [if_pos rfl] at failed
  simp only at failed
  by_cases past : s.pageCount file ≤ number
  · rw [if_pos past] at failed
    cases failed
    exact Or.inl ⟨past, rfl⟩
  · have inside : number < s.pageCount file := Nat.not_le.1 past
    rw [if_neg past, read_pageFile (Nat.lt_of_lt_of_le inside (s.pageCount_le file))] at failed
    have size := size_imageAt s file number
    exact Or.inr ⟨inside, Page.load_error proper.wide (by rw [size]; exact proper.roomy)
      (by rw [size]; exact proper.addressed) failed⟩

/-- Nothing of the table has been lost: what is resident goes with the files, and all pages
of the file can be counted. -/
structure Legible (s : Store) (file : TableFile) : Prop where
  mirrored : s.Mirrored
  registered : s.catalog.file file.id = .ok file
  fits : s.wholePages file < PageFile.pageLimit

namespace Legible

theorem proper (legible : s.Legible file) : file.Proper :=
  (legible.mirrored.tables _ _ legible.registered).2

theorem pageCount_eq (legible : s.Legible file) : s.pageCount file = s.wholePages file :=
  Nat.mod_eq_of_lt legible.fits

theorem not_wrapped (legible : s.Legible file) : ¬ s.Wrapped file := by
  rintro ⟨zero, some⟩
  exact some (legible.pageCount_eq ▸ zero)

theorem reads (legible : s.Legible file) (reads : s.Reads txn after) : after.Legible file := by
  refine ⟨legible.mirrored.effects (Walks.effects reads.walk), ?_, ?_⟩
  · rw [(Walks.grows reads.walk).catalog, legible.registered]
  · rw [(views_congr reads.disk file).1]
    exact legible.fits

/-- **A page that is read** under a lock is the page that the transaction sees. -/
theorem pageFor_of_readPage (legible : s.Legible file) {mode : LockMode} {frame : Frame}
    (run : StoreAction.readPage txn ⟨file.id, number⟩ mode s = (.ok frame, after)) :
    number < s.pageCount file ∧ s.pageFor txn file number = .ok frame.page := by
  obtain ⟨reads, found⟩ := StoreAction.readPage_spec legible.mirrored.pool run
  obtain ⟨there, held, holds, -⟩ := found frame rfl
  have still := legible.reads reads
  have placed := still.mirrored.matched _ frame file there still.registered
  have inside : number < after.pageCount file := placed.counted still.not_wrapped
  refine ⟨by rwa [(views_congr reads.disk file).2.1] at inside, ?_⟩
  rw [← pageFor_reads reads, pageFor]
  rcases still.mirrored.mark_of_holds there ⟨held, holds⟩ with unmarked | own
  · have none : after.draft txn ⟨file.id, number⟩ = none := by
      refine draft_eq_none_iff.2 fun other again marked => ?_
      rw [there, Option.some.injEq] at again
      rw [← again, unmarked] at marked
      cases marked
    obtain ⟨listed, known, schema, -, sound⟩ := still.mirrored.belongs _ frame there
    obtain rfl : listed = file := Except.ok.inj (known.symm.trans still.registered)
    have image := placed.clean still.not_wrapped unmarked
    have named := (still.mirrored.pool.resident?_id there).2
    rw [none]
    simp only
    rw [← readFromDisk_eq_filePage still.fits]
    refine readFromDisk_eq_ok_iff.2 ⟨rfl, inside, ?_, sound⟩
    rw [← image, ← schema, ← named, ← unmarked]
  · rw [draft_eq_some_iff.2 ⟨frame, there, own, rfl⟩]

/-- Every page that the transaction sees is a sound page of the table. -/
theorem shape (legible : s.Legible file) {page : Page}
    (found : s.pageFor txn file number = .ok page) :
    page.id = ⟨file.id, number⟩ ∧ page.schema = file.schema ∧
      page.image.size = file.pageSize ∧ page.Sound := by
  unfold pageFor at found
  split at found
  · rename_i drafted
    cases found
    obtain ⟨frame, there, -, rfl⟩ := draft_eq_some_iff.1 drafted
    obtain ⟨held, known, schema, size, sound⟩ := legible.mirrored.belongs _ frame there
    have same : held = file := Except.ok.inj (known.symm.trans legible.registered)
    subst same
    exact ⟨(legible.mirrored.pool.resident?_id there).2, schema, size, sound⟩
  · unfold filePage at found
    split at found
    · obtain ⟨rfl, sound⟩ := Page.load_eq_ok_iff.1 found
      exact ⟨rfl, rfl, size_imageAt _ _ _, sound⟩
    · cases found

/-- No page behind the last is resident. -/
theorem not_resident (legible : s.Legible file) (past : s.pageCount file ≤ number) :
    s.pool.resident? ⟨file.id, number⟩ = none := by
  cases there : s.pool.resident? ⟨file.id, number⟩ with
  | none => rfl
  | some frame =>
      have placed := legible.mirrored.matched _ frame file there legible.registered
      have inside : number < s.pageCount file := placed.counted legible.not_wrapped
      omega

/-- A page that is not resident is seen as it lies in the file, or not at all. -/
theorem pageFor_of_absent (legible : s.Legible file)
    (absent : s.pool.resident? ⟨file.id, number⟩ = none) :
    s.pageFor txn file number = s.readFromDisk file ⟨file.id, number⟩ := by
  rw [pageFor, draft_of_absent absent]
  exact (readFromDisk_eq_filePage legible.fits number).symm

theorem pageFor_of_le (legible : s.Legible file) (past : s.pageCount file ≤ number) :
    s.pageFor txn file number = .error (.pageNotFound ⟨file.id, number⟩) := by
  rw [pageFor, draft_of_absent (legible.not_resident past)]
  exact if_neg (by rw [← legible.pageCount_eq]; omega)

/-! ### Growth -/

theorem wholePages_grown (legible : s.Legible file) :
    (s.grown file).wholePages file = s.wholePages file + 1 := by
  rw [grown, wholePages_putImage _ _ legible.proper.pageSize_pos (Image.size_zeros file.pageSize),
    legible.pageCount_eq]
  omega

/-- The new page is empty, and the others are as before. -/
theorem filePage_grown (legible : s.Legible file) (number : Nat) :
    (s.grown file).filePage file number =
      if number = s.pageCount file then
        .ok ⟨⟨file.id, number⟩, file.schema, Image.zeros file.pageSize, none⟩
      else s.filePage file number := by
  have zeros := Image.size_zeros file.pageSize
  have proper := legible.proper
  unfold filePage
  rw [legible.wholePages_grown]
  by_cases last : number = s.pageCount file
  · have image : (s.grown file).imageAt file number = Image.zeros file.pageSize := by
      rw [last]
      exact imageAt_putImage_same s _ zeros
    rw [if_pos last, image, if_pos (by rw [last, legible.pageCount_eq]; omega)]
    exact Page.load_eq_ok_iff.2 ⟨rfl, Page.sound_zeros _ proper.wide proper.roomy proper.addressed⟩
  · have image : (s.grown file).imageAt file number = s.imageAt file number :=
      imageAt_putImage_ne s _ zeros last
    have inside : number < s.wholePages file + 1 ↔ number < s.wholePages file := by
      rw [legible.pageCount_eq] at last
      omega
    simp only [if_neg last, image, inside]

theorem pageFor_grown (legible : s.Legible file) :
    (s.grown file).pageFor txn file (s.pageCount file) =
      .ok ⟨⟨file.id, s.pageCount file⟩, file.schema, Image.zeros file.pageSize, none⟩ := by
  have none : (s.grown file).draft txn ⟨file.id, s.pageCount file⟩ = none :=
    draft_of_absent (legible.not_resident le_rfl)
  rw [pageFor, none]
  simp only
  rw [legible.filePage_grown, if_pos rfl]

theorem filePage_grown_ne (legible : s.Legible file) {table : TableId} {held : TableFile}
    (listed : s.catalog.file table = .ok held) (apart : held ≠ file) (number : Nat) :
    (s.grown file).filePage held number = s.filePage held number := by
  have tables := legible.mirrored.tables
  have paths : held.path ≠ file.path := fun same =>
    apart (tables.path_inj listed legible.registered same)
  have image : (s.grown file).imageAt held number = s.imageAt held number :=
    (s.views_putImage_ne _ paths).1 number
  unfold filePage
  rw [wholePages_grown_ne tables legible.registered listed apart, image]

/-- An empty page adds nothing to what anyone sees. -/
theorem seen_grown (legible : s.Legible file) : (s.grown file).seen owner = s.seen owner := by
  funext id
  unfold seen pageFor
  have drafts : ∀ id, (s.grown file).draft owner id = s.draft owner id := fun _ => rfl
  have catalog : (s.grown file).catalog = s.catalog := rfl
  rw [catalog]
  cases listed : s.catalog.file id.page.table with
  | error fault => rfl
  | ok held =>
      simp only [drafts]
      cases s.draft owner ⟨held.id, id.page.number⟩ with
      | some page => rfl
      | none =>
          by_cases own : held = file
          · subst own
            by_cases last : id.page.number = s.pageCount held
            · have past : s.filePage held id.page.number = .error (.pageNotFound _) :=
                if_neg (by rw [last, legible.pageCount_eq]; omega)
              simp only [legible.filePage_grown, if_pos last, past, Page.at?_zeros]
            · simp only [legible.filePage_grown, if_neg last]
          · simp only [legible.filePage_grown_ne listed own]

end Legible

/-! ## Edits -/

/-- The edit of a transaction shows in what it sees, and nobody else sees any difference. -/
structure EditShows (s after : Store) (txn : TxnId) (e : Edit) : Prop where
  own : after.seen txn = e.apply (s.seen txn)
  others : ∀ other, other ≠ txn → after.seen other = s.seen other

theorem EditShows.of_seen {e : Edit} (same : ∀ owner, mid.seen owner = s.seen owner)
    (shows : mid.EditShows after txn e) : s.EditShows after txn e := by
  refine ⟨by rw [shows.own, same], fun other apart => ?_⟩
  rw [shows.others other apart, same]

/-- **An edit** of a page that the transaction has to itself shows for it alone. -/
theorem seen_replaces (ok : s.Orderly) {frame : Frame} {page : Page} {e : Edit}
    (registered : s.catalog.file frame.id.table = .ok file)
    (there : s.pool.resident? frame.id = some frame) (holds : s.Holds txn frame.id)
    (found : s.pageFor txn file frame.id.number = .ok frame.page)
    (replaces : s.Replaces after { frame with page := page.withMark (some txn) })
    (own : e.id.page = frame.id)
    (contents : ∀ slot, page.at? slot = if slot = e.id.slot then e.entry else frame.page.at? slot) :
    s.EditShows after txn e := by
  obtain ⟨pool, rfl⟩ := replaces.store
  have tables := ok.tables
  have files : ∀ held number, filePage { s with pool } held number = s.filePage held number :=
    filePage_congr rfl
  have elsewhere : ∀ other id, id ≠ frame.id →
      draft { s with pool } other id = s.draft other id := by
    intro other id apart
    unfold draft unwritten
    rw [replaces.residents, if_neg apart]
  have own_id := (tables _ file registered).1
  constructor
  · funext ⟨page_id, slot⟩
    by_cases here : page_id = frame.id
    · subst here
      have drafted : draft { s with pool } txn frame.id = some (page.withMark (some txn)) :=
        draft_eq_some_iff.2 ⟨_, (replaces.residents _).trans (if_pos rfl), rfl, rfl⟩
      have before : s.seen txn ⟨frame.id, slot⟩ = frame.page.at? slot := by
        unfold seen
        simp only [registered, found]
      have after : seen { s with pool } txn ⟨frame.id, slot⟩ = page.at? slot := by
        unfold seen pageFor
        have page_id : (⟨file.id, frame.id.number⟩ : PageId) = frame.id := by rw [own_id]
        simp only [registered, page_id, drafted]
        rfl
      rw [after, contents, Edit.apply_page own, before]
    · rw [Edit.apply_elsewhere (own ▸ here)]
      exact seen_congr tables rfl (elsewhere txn page_id here) files
  · intro other apart
    funext id
    refine seen_congr tables rfl ?_ files
    by_cases here : id.page = frame.id
    · have foreign : s.draft other id.page = none := by
        refine draft_eq_none_iff.2 fun held again marked => ?_
        rw [here, there, Option.some.injEq] at again
        rw [← again] at marked
        exact apart (ok.owner_eq there holds marked)
      rw [foreign, draft_eq_none_iff]
      intro held now marked
      rw [replaces.residents, if_pos here, Option.some.injEq] at now
      rw [← now] at marked
      exact apart (Option.some.inj marked).symm
    · exact elsewhere other id.page here

end Store

/-- **The rows of a ledger** that agrees with the store are those that the transaction
sees. -/
theorem Ledger.Agrees.seen_eq {ℓ : Ledger} {s : Store} (agrees : ℓ.Agrees s) (ok : s.Orderly)
    (bounded : s.Bounded) (txn : TxnId) : s.seen txn = ℓ.view txn := by
  funext id
  unfold Store.seen
  cases listed : s.catalog.file id.page.table with
  | error fault =>
      simp only
      cases viewed : ℓ.view txn id with
      | none => rfl
      | some values =>
          obtain ⟨file, known, -⟩ := agrees.view_inside ok viewed
          rw [listed] at known
          cases known
  | ok file =>
      have page_id : (⟨file.id, id.page.number⟩ : PageId) = id.page := by
        rw [(ok.tables _ file listed).1]
      simp only [Store.pageFor, page_id]
      cases drafted : s.draft txn id.page with
      | some page =>
          obtain ⟨frame, there, marked, rfl⟩ := Store.draft_eq_some_iff.1 drafted
          exact agrees.changed id.page frame txn there marked id.slot
      | none =>
          rw [agrees.view_of_unmarked (Store.draft_eq_none_iff.1 drafted)]
          have fits := bounded _ file listed
          have read := Store.readFromDisk_eq_filePage fits id.page.number
          rw [page_id] at read
          simp only [← read]
          by_cases inside : id.page.number < s.pageCount file
          · obtain ⟨page, stored, same⟩ := agrees.stored id.page file listed inside
            simp only [stored, same]
          · have past : s.filePage file id.page.number = .error (.pageNotFound _) :=
              if_neg (by rwa [← bounded.pageCount_eq listed])
            rw [read, past]
            cases committed : ℓ.committed id with
            | none => rfl
            | some values =>
                obtain ⟨held, again, within⟩ := agrees.inside id values committed
                rw [listed] at again
                cases again
                exact absurd within inside

end RowStore
