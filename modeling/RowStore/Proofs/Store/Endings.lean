/-
# RowStore.Proofs.Store.Endings -- what the end of a transaction leaves behind

A transaction ends with a commit that is carried out, with a commit that is refused because
some page cannot be written, or with a rollback.  However it ends, nothing in the store
belongs to it any more, and nothing of the others was touched (`InService.ends`).  Ending it
again then changes nothing at all (`InService.complete_again`).

Nothing is asked of the store but that it is in service: pages may have been changed in any
way and tables may have been forgotten, so any page of a commit may turn out not to be
writable.  What holds of a commit up to the page at which it stops is said in terms of the
pages that it saved (`Saves`).
-/
import RowStore.Proofs.Store.Completion
import RowStore.Proofs.Store.Renaming

namespace RowStore

set_option autoImplicit false

open Relation RowStore.Action StoreAction

/-- The frame once its page has been written. -/
def Frame.clean (frame : Frame) : Frame := { frame with page := frame.page.withMark none }

namespace Store

variable {txn : TxnId} {s mid after : Store}

/-! ## The tables of a store in service -/

/-- What holds of the tables that a store knows may be shown without a look at calls on rows,
which leave the tables alone. -/
theorem InService.tables_induct {P : Store → Prop} (service : s.InService)
    (opened : ∀ {settings disk s}, openOn settings disk = .ok s → P s)
    (created : ∀ {s} (name : String) (schema : Schema), P s → P (createTable name schema s).2)
    (attached : ∀ {s} (name : String) (schema : Schema), P s → P (openTable name schema s).2)
    (forgotten : ∀ {s}, P s → P (clearCatalog s).2)
    (same : ∀ {s after}, s.SameTables after → P s → P after) : P s := by
  induction service with
  | opened done => exact opened done
  | created _ name schema ih => exact created name schema ih
  | attached _ name schema ih => exact attached name schema ih
  | forgotten _ ih => exact forgotten ih
  | called before txn call ih =>
      obtain ⟨_, intact, -⟩ := before.kept
      exact same (sameTables_carryOut intact.pool txn call) ih
  | broken _ walk ih => exact same (Walks.sameTables walk) ih
  | changed before txn id action own ih =>
      obtain ⟨_, intact, -⟩ := before.kept
      exact same (sameTables_changePage intact.pool own) ih
  | handled _ index page own ih =>
      refine same ?_ ih
      exact ⟨rfl, rfl, rfl⟩
  | wroteBack _ index ih => exact same (sameTables_writeBack _ index) ih
  | flushedPage _ id ih => exact same (sameTables_flushPage _ id) ih
  | flushedChanges _ txn ih => exact same (sameTables_flushChangesOf _ txn) ih
  | @flushed s _ ih => exact same (sameTables_forM_writeBack s.pool.occupied s) ih
  | discarded _ id ih =>
      refine same ?_ ih
      exact ⟨rfl, rfl, rfl⟩
  | beside _ tables _ ih => exact same tables ih

/-- Every table is made for the page size of the store, and its file is proper. -/
structure WellMade (s : Store) : Prop where
  settings : s.settings.pageSize ≤ Settings.largestPage
  tables : s.catalog.Proper

theorem WellMade.sameTables (made : s.WellMade) (same : s.SameTables after) : after.WellMade :=
  ⟨same.settings ▸ made.settings, same.catalog ▸ made.tables⟩

theorem WellMade.registered (made : s.WellMade) {path : String} {schema : Schema}
    {file : TableFile} (fits : TableFile.at? path schema s.settings.pageSize = .ok file)
    (name : String) : (s.registered name file).WellMade := by
  refine ⟨made.settings, fun table held found => ?_⟩
  rcases Catalog.file_add found with ⟨rfl, rfl⟩ | before
  · exact ⟨rfl, (proper_of_at? made.settings fits).2⟩
  · exact made.tables table held before

theorem InService.wellMade (service : s.InService) : s.WellMade := by
  apply service.tables_induct
  · intro settings disk s done
    have untouched := untouched_of_openOn done
    exact ⟨untouched.settings, untouched.tables⟩
  · intro s name schema made
    rcases run : createTable name schema s with ⟨answer, after⟩
    show after.WellMade
    rcases createTable_spec run with rfl | ⟨path, rfl | ⟨file, fits, rfl⟩⟩
    · exact made
    · exact made.sameTables ⟨rfl, rfl, rfl⟩
    · have dropped : ((s.cleared path).withoutPagesOf file.id).WellMade :=
        made.sameTables ⟨rfl, rfl, rfl⟩
      exact dropped.registered fits name
  · intro s name schema made
    rcases run : openTable name schema s with ⟨answer, after⟩
    show after.WellMade
    obtain ⟨start, origin, ending⟩ := openTable_spec run
    have begun : s.SameTables start := by
      rcases origin with rfl | ⟨path, -, rfl⟩
      · exact .refl _
      · exact ⟨rfl, rfl, rfl⟩
    rcases ending with rfl | ⟨path, file, fits, rfl⟩
    · exact made.sameTables begun
    · exact (made.sameTables begun).registered (begun.settings.symm ▸ fits) name
  · intro s made
    refine ⟨made.settings, fun table file found => ?_⟩
    cases found
  · intro s after same made
    exact made.sameTables same

/-! ## Saving pages -/

/-- The file of a page's table has this image in the place of the page. -/
def OnDisk (s : Store) (id : PageId) (image : Image) : Prop :=
  ∃ file, s.catalog.file id.table = .ok file ∧ id.number < s.wholePages file ∧
    s.imageAt file id.number = image

/-- A page that the transaction changed got to its place on disk and is clean now: this is
all that happened. -/
structure Saves (txn : TxnId) (s after : Store) (frame : Frame) (file : TableFile) : Prop where
  there : s.pool.resident? frame.id = some frame
  marked : frame.page.mark = some txn
  registered : s.catalog.file frame.id.table = .ok file
  size : frame.page.image.size = file.pageSize
  disk : after.disk = (s.putImage file frame.id.number frame.page.image).disk
  catalog : after.catalog = s.catalog
  locks : after.locks = s.locks
  pool : after.pool.Consistent
  residents : ∀ id, after.pool.resident? id =
    if id = frame.id then some frame.clean else s.pool.resident? id

/-- Finitely many pages are saved. -/
abbrev SavesAll (txn : TxnId) (s after : Store) : Prop :=
  ReflTransGen (fun mid next => ∃ frame file, Saves txn mid next frame file) s after

section

variable {frame : Frame} {file : TableFile} {id : PageId} {image : Image}

theorem saves_flushed (ok : s.pool.Consistent) {index : Nat}
    (occupied : s.pool.frame? index = some frame) (marked : frame.page.mark = some txn)
    (registered : s.catalog.file frame.id.table = .ok file)
    (size : frame.page.image.size = file.pageSize) :
    Saves txn s (s.flushed file index frame) frame file := by
  obtain ⟨consistent, residents⟩ := residents_flushed file ok occupied
  have there := ok.resident?_eq_some.2 ⟨index, occupied, rfl⟩
  exact ⟨there, marked, registered, size, rfl, rfl, rfl, consistent, residents⟩

theorem Saves.imageAt_eq (saves : Saves txn s after frame file) (held : TableFile) (number : Nat) :
    after.imageAt held number =
      (s.putImage file frame.id.number frame.page.image).imageAt held number := by
  rw [imageAt, saves.disk]
  rfl

theorem Saves.wholePages_eq (saves : Saves txn s after frame file) (held : TableFile) :
    after.wholePages held = (s.putImage file frame.id.number frame.page.image).wholePages held := by
  rw [wholePages, saves.disk]
  rfl

/-- The saved page is in its place. -/
theorem Saves.onDisk (tables : s.catalog.Proper) (saves : Saves txn s after frame file) :
    after.OnDisk frame.id frame.page.image := by
  have pos := (tables _ file saves.registered).2.pageSize_pos
  refine ⟨file, saves.catalog ▸ saves.registered, ?_, ?_⟩
  · rw [saves.wholePages_eq, wholePages_putImage _ _ pos saves.size]
    omega
  · rw [saves.imageAt_eq]
    exact imageAt_putImage_same s _ saves.size

/-- What is in its place stays there while another page is saved. -/
theorem Saves.onDisk_of_ne (tables : s.catalog.Proper) (saves : Saves txn s after frame file)
    (stored : s.OnDisk id image) (apart : id ≠ frame.id) : after.OnDisk id image := by
  obtain ⟨held, listed, inside, same⟩ := stored
  have longer := (grows_putImage s file frame.id.number frame.page.image).length held.path
  refine ⟨held, saves.catalog ▸ listed, ?_, ?_⟩
  · rw [saves.wholePages_eq]
    exact Nat.lt_of_lt_of_le inside (Nat.div_le_div_right longer)
  · rw [saves.imageAt_eq, imageAt_putImage tables saves.registered saves.size listed, if_neg apart,
      same]

end

/-- Of the pages that the transaction had changed some are clean by now or gone.  Nothing else
has become of any page, and locks and tables are what they were. -/
structure Cleans (txn : TxnId) (s mid : Store) : Prop where
  catalog : mid.catalog = s.catalog
  locks : mid.locks = s.locks
  pool : mid.pool.Consistent
  pages : ∀ id, mid.pool.resident? id = s.pool.resident? id ∨ ∃ frame,
    s.pool.resident? id = some frame ∧ frame.page.mark = some txn ∧
      ∀ held, mid.pool.resident? id = some held → held = frame.clean

theorem Cleans.refl (ok : s.pool.Consistent) : s.Cleans txn s :=
  ⟨rfl, rfl, ok, fun _ => Or.inl rfl⟩

theorem Cleans.withDisk (cleans : Cleans txn s mid) (disk : Disk) :
    Cleans txn s { mid with disk } :=
  ⟨cleans.catalog, cleans.locks, cleans.pool, cleans.pages⟩

/-- A page that is still marked has not been touched. -/
theorem Cleans.resident?_of_marked (cleans : Cleans txn s mid) {id : PageId} {frame : Frame}
    {owner : TxnId} (there : mid.pool.resident? id = some frame)
    (marked : frame.page.mark = some owner) : s.pool.resident? id = some frame := by
  rcases cleans.pages id with same | ⟨held, -, -, now⟩
  · rw [← same, there]
  · rw [now frame there] at marked
    cases marked

theorem Cleans.saves {frame : Frame} {file : TableFile} (cleans : Cleans txn s mid)
    (saves : Saves txn mid after frame file) : Cleans txn s after := by
  refine ⟨saves.catalog.trans cleans.catalog, saves.locks.trans cleans.locks, saves.pool,
    fun id => ?_⟩
  rw [saves.residents]
  split
  · rename_i here
    subst here
    have before := cleans.resident?_of_marked saves.there saves.marked
    exact Or.inr ⟨frame, before, saves.marked, fun held now => (Option.some.inj now).symm⟩
  · exact cleans.pages id

theorem cleans_of_savesAll (ok : s.pool.Consistent) (saved : SavesAll txn s mid) :
    Cleans txn s mid := by
  induction saved with
  | refl => exact .refl ok
  | tail _ next ih =>
      obtain ⟨frame, file, saves⟩ := next
      exact ih.saves saves

/-- A page of the transaction is as it was or has been saved. -/
theorem saved_of_savesAll (ok : s.pool.Consistent) (tables : s.catalog.Proper)
    (saved : SavesAll txn s mid) {id : PageId} {frame : Frame}
    (there : s.pool.resident? id = some frame) :
    mid.pool.resident? id = some frame ∨
      mid.pool.resident? id = some frame.clean ∧ mid.OnDisk id frame.page.image := by
  induction saved with
  | refl => exact Or.inl there
  | @tail mid after steps next ih =>
      obtain ⟨held, file, saves⟩ := next
      have proper : mid.catalog.Proper := (cleans_of_savesAll ok steps).catalog ▸ tables
      rw [saves.residents]
      by_cases here : id = held.id
      · rw [if_pos here]
        subst here
        rcases ih with same | ⟨same, -⟩ <;> rw [saves.there, Option.some.injEq] at same
        · rw [← same]
          exact Or.inr ⟨rfl, saves.onDisk proper⟩
        · have marked := saves.marked
          rw [same] at marked
          cases marked
      · rw [if_neg here]
        rcases ih with same | ⟨same, stored⟩
        · exact Or.inl same
        · exact Or.inr ⟨same, saves.onDisk_of_ne proper stored here⟩

/-! ## Flushing, up to the page at which it stops -/

/-- A page of the transaction is saved, or the flush stops and nothing has happened. -/
theorem writeBack_marked (ok : s.pool.Consistent) (tables : s.catalog.Proper) {index : Nat}
    {frame : Frame} (occupied : s.pool.frame? index = some frame)
    (marked : frame.page.mark = some txn) :
    (∃ stop, writeBack index s = (.error stop, s)) ∨ ∃ after file,
      writeBack index s = (.ok (), after) ∧ Saves txn s after frame file ∧
        ∀ other, after.pool.frame? other =
          if other = index then some frame.clean else s.pool.frame? other := by
  have named := ok.named index frame occupied
  have dirty : frame.page.isDirty = true := by simp [Page.isDirty, marked]
  unfold writeBack
  rw [bind_apply, get_apply]
  simp only [occupied, dirty, if_true]
  rw [bind_apply, tableFile, query_apply, named]
  cases registered : s.catalog.file frame.id.table with
  | error fault => exact Or.inl ⟨_, rfl⟩
  | ok file =>
      have own : frame.page.id.table = file.id := by rw [named, (tables _ file registered).1]
      simp only [Except.mapError]
      rw [bind_apply, query_apply]
      by_cases size : frame.page.image.size = file.pageSize
      · rw [writeToDisk_eq own size, named]
        refine Or.inr ⟨s.flushed file index frame, file, rfl,
          saves_flushed ok occupied marked registered size, fun other => ?_⟩
        show (s.pool.setPage index (frame.page.withMark none)).frame? other = _
        unfold Pool.setPage
        simp only [occupied]
        exact Pool.frame?_refill occupied _ other
      · have refused : ∃ fault, s.writeToDisk file frame.page = .error fault := by
          unfold writeToDisk TableFile.checkOwner PageFile.put
          rw [if_pos own]
          simp only
          rw [if_pos (by simpa [pageFile] using size)]
          exact ⟨_, rfl⟩
        obtain ⟨fault, refused⟩ := refused
        rw [refused]
        exact Or.inl ⟨_, rfl⟩

/-- Writing frames back, none of which holds changes of another transaction, saves pages.  If
it goes through, none of these frames is marked any more. -/
theorem forM_writeBack_saves {listed : List (Nat × Frame)} {answer : Except Stop Unit}
    (ok : s.pool.Consistent) (tables : s.catalog.Proper)
    (own : ∀ e ∈ listed, ∀ frame, s.pool.frame? e.1 = some frame →
      frame.page.mark = none ∨ frame.page.mark = some txn)
    (run : (forM listed fun e => writeBack e.1 : StoreAction Unit) s = (answer, after)) :
    SavesAll txn s after ∧ (answer = .ok () → ∀ index frame,
      after.pool.frame? index = some frame → frame.page.mark = some txn →
        s.pool.frame? index = some frame ∧ index ∉ listed.map Prod.fst) := by
  obtain ⟨-, saved, ended⟩ := forM_writeBack
    (I := fun s => s.pool.Consistent ∧ s.catalog.Proper)
    (R := fun mid next => ∃ frame file, Saves txn mid next frame file)
    (fun s index frame ⟨ok, tables⟩ occupied marked =>
      (writeBack_marked ok tables occupied marked).imp id
        fun ⟨mid, file, written, saves, frames⟩ =>
          ⟨mid, written, ⟨saves.pool, saves.catalog ▸ tables⟩, ⟨frame, file, saves⟩, frames⟩)
    ⟨ok, tables⟩ own run
  refine ⟨saved, fun done => ?_⟩
  rcases ended with ⟨stop, _, _, refused, -⟩ | ⟨-, left⟩
  · rw [done] at refused
    cases refused
  · exact left

theorem flushChangesOf_saves {answer : Except Stop Unit} (ok : s.pool.Consistent)
    (tables : s.catalog.Proper) (run : flushChangesOf txn s = (answer, after)) :
    SavesAll txn s after ∧ (answer = .ok () →
      ∀ id frame, after.pool.resident? id = some frame → frame.page.mark ≠ some txn) := by
  have flushed : (forM (s.pool.dirtiedBy txn) fun e => writeBack e.1 : StoreAction Unit) s =
      (answer, after) := run
  obtain ⟨saved, left⟩ :=
    forM_writeBack_saves ok tables (fun _ member => own_of_dirtiedBy member) flushed
  exact ⟨saved, fun done => unmarked_of_left (cleans_of_savesAll ok saved).pool (left done)⟩

/-! ## The end of a transaction -/

/-- The transaction has ended: nothing in the store belongs to it any more, and what belongs
to the others is what it was. -/
structure Finished (txn : TxnId) (s after : Store) : Prop where
  /-- Its locks are gone from every page, and all others are still held. -/
  locks : ∀ page, after.locks.holders page = LockTable.others (s.locks.holders page) txn
  /-- It is not registered as waiting. -/
  waiting : ∀ other, after.locks.waiting.get? other =
    if other = txn then none else s.locks.waiting.get? other
  /-- No resident page has changes of it. -/
  unmarked : ∀ id frame, after.pool.resident? id = some frame → frame.page.mark ≠ some txn
  /-- The same pages have changes of another. -/
  foreign : ∀ other, other ≠ txn → ∀ id frame, frame.page.mark = some other →
    (after.pool.resident? id = some frame ↔ s.pool.resident? id = some frame)
  pool : after.pool.Consistent

/-- When no page has changes of the transaction left, its locks are released. -/
theorem Cleans.finished (cleans : Cleans txn s mid)
    (unmarked : ∀ id frame, mid.pool.resident? id = some frame → frame.page.mark ≠ some txn) :
    Finished txn s { mid with locks := (mid.locks.releaseAll txn).2 } := by
  refine ⟨fun page => ?_, fun other => ?_, unmarked, fun other apart id frame marked => ?_,
    cleans.pool⟩
  · rw [← cleans.locks]
    exact mid.locks.holders_releaseAll txn page
  · rw [← cleans.locks]
    exact mid.locks.waiting_releaseAll txn other
  · constructor
    · exact fun there => cleans.resident?_of_marked there marked
    · intro there
      rcases cleans.pages id with same | ⟨held, before, own, -⟩
      · exact same.trans there
      · rw [there, Option.some.injEq] at before
        rw [before, own, Option.some.injEq] at marked
        exact absurd marked.symm apart

theorem Cleans.drop (cleans : Cleans txn s mid) {pool : Pool} (consistent : pool.Consistent)
    (residents : ∀ id frame, pool.resident? id = some frame ↔
      mid.pool.resident? id = some frame ∧ frame.page.mark ≠ some txn) :
    Cleans txn s { mid with pool } := by
  refine ⟨cleans.catalog, cleans.locks, consistent, fun id => ?_⟩
  show pool.resident? id = _ ∨ _
  by_cases carries : ∃ frame, mid.pool.resident? id = some frame ∧ frame.page.mark = some txn
  · obtain ⟨frame, there, marked⟩ := carries
    have before := cleans.resident?_of_marked there marked
    refine Or.inr ⟨frame, before, marked, fun held kept => ?_⟩
    obtain ⟨same, foreign⟩ := (residents id held).1 kept
    rw [there, Option.some.injEq] at same
    exact absurd (same ▸ marked) foreign
  · have same : pool.resident? id = mid.pool.resident? id := by
      refine Option.ext fun frame => ?_
      rw [residents, and_iff_left_of_imp]
      exact fun there marked => carries ⟨frame, there, marked⟩
    rw [same]
    exact cleans.pages id

/-- A rollback, also one that follows on a part of a commit, drops what is still marked. -/
theorem Cleans.rollback {answer : Except Stop Unit} (cleans : Cleans txn s mid)
    (run : rollback txn mid = (answer, after)) :
    Finished txn s after ∧ after.disk = mid.disk ∧ answer = .ok () := by
  obtain ⟨consistent, residents⟩ := cleans.pool.foldl_remove_dirtiedBy txn rfl
  have kept := fun id frame => (Eq.congr_left (residents id)).trans
    (Option.filter_eq_some_iff (o := mid.pool.resident? id) (a := frame))
  simp only [decide_eq_true_eq] at kept
  have finished := (cleans.drop consistent kept).finished fun id frame there =>
    ((kept id frame).1 there).2
  cases run
  exact ⟨finished, rfl, rfl⟩

/-- A commit saves pages, whether it goes through or not; if it does, the transaction is
finished. -/
theorem complete_saves {answer : Except Stop Unit} (ok : s.pool.Consistent)
    (tables : s.catalog.Proper) (run : complete txn true s = (answer, after)) :
    (∃ stop, answer = .error stop ∧ SavesAll txn s after) ∨ answer = .ok () ∧ ∃ mid,
      SavesAll txn s mid ∧ after = { mid with locks := (mid.locks.releaseAll txn).2 } ∧
        ∀ id frame, mid.pool.resident? id = some frame → frame.page.mark ≠ some txn := by
  unfold complete at run
  rw [if_pos rfl] at run
  rcases bind_cases run with ⟨stop, stopped, refused⟩ | ⟨⟨⟩, mid, flushed, last⟩
  · exact Or.inl ⟨stop, refused, (flushChangesOf_saves ok tables stopped).1⟩
  · obtain ⟨saved, clean⟩ := flushChangesOf_saves ok tables flushed
    cases last
    exact Or.inr ⟨rfl, mid, saved, rfl, clean rfl⟩

theorem complete_finished {keep : Bool} (ok : s.pool.Consistent) (tables : s.catalog.Proper)
    (run : complete txn keep s = (.ok (), after)) : Finished txn s after := by
  cases keep with
  | false => exact ((Cleans.refl ok).rollback run).1
  | true =>
      rcases complete_saves ok tables run with ⟨stop, refused, -⟩ | ⟨-, mid, saved, rfl, clean⟩
      · cases refused
      · exact (cleans_of_savesAll ok saved).finished clean

/-! ## However it ends -/

/-- The ways in which a transaction can end. -/
inductive Closing where
  | committed
  | refused
  | dropped
deriving DecidableEq

/-- A transaction of a client ends: the client commits or rolls back, or lets go of the
transaction, which is a rollback too. -/
inductive Closes (txn : TxnId) (s : Store) : Closing → Store → Prop where
  | committed {after : Store} (run : commit txn s = (.ok (), after)) : Closes txn s .committed after
  | refused {stop : Stop} {after : Store} (run : commit txn s = (.error stop, after)) :
      Closes txn s .refused after
  /-- The disk fails at some page of a commit and may hold anything afterwards. -/
  | broken {saved rest : List (Nat × Frame)} {mid after : Store} (disk : Disk)
      {answer : Except Stop Unit} (listed : s.pool.dirtiedBy txn = saved ++ rest)
      (wrote : (forM saved fun e => writeBack e.1 : StoreAction Unit) s = (.ok (), mid))
      (run : rollback txn { mid with disk } = (answer, after)) : Closes txn s .refused after
  | dropped {answer : Except Stop Unit} {after : Store}
      (run : rollback txn s = (answer, after)) : Closes txn s .dropped after

/-- **The end of a transaction.**  However it ends, nothing in the store belongs to it any
more, and what belongs to the others is untouched.  If its commit was carried out, every page
with changes of it is resident still, clean, and in its place on disk; if it was dropped, the
disk is as before. -/
theorem InService.closes (service : s.InService) {way : Closing} (closes : Closes txn s way after) :
    Finished txn s after ∧
    (way = .committed → ∀ id frame, s.pool.resident? id = some frame →
      frame.page.mark = some txn →
        after.pool.resident? id = some frame.clean ∧ after.OnDisk id frame.page.image) ∧
    (way = .dropped → after.disk = s.disk) := by
  obtain ⟨_, intact, -⟩ := service.kept
  have ok := intact.pool
  have tables := service.wellMade.tables
  cases closes with
  | committed run =>
      rw [commit_apply] at run
      rcases ended : complete txn true s with ⟨stop | ⟨⟩, last⟩ <;> rw [ended] at run <;> cases run
      rcases complete_saves ok tables ended with ⟨stop, refused, -⟩ | ⟨-, mid, saved, rfl, clean⟩
      · cases refused
      have finished := (cleans_of_savesAll ok saved).finished clean
      refine ⟨finished, fun _ id frame there marked => ?_, nofun⟩
      rcases saved_of_savesAll ok tables saved there with same | ⟨now, stored⟩
      · exact absurd marked (clean id frame same)
      · exact ⟨now, stored⟩
  | refused run =>
      rw [commit_apply] at run
      rcases ended : complete txn true s with ⟨stop | ⟨⟩, mid⟩ <;> rw [ended] at run <;> cases run
      rcases complete_saves ok tables ended with ⟨_, -, saved⟩ | ⟨went, -⟩
      · exact ⟨((cleans_of_savesAll ok saved).rollback rfl).1, nofun, nofun⟩
      · cases went
  | broken disk listed wrote run =>
      obtain ⟨saved, -⟩ := forM_writeBack_saves ok tables (fun e member =>
        own_of_dirtiedBy (listed ▸ List.mem_append_left _ member)) wrote
      have cleans := (cleans_of_savesAll ok saved).withDisk disk
      exact ⟨(cleans.rollback run).1, nofun, nofun⟩
  | dropped run =>
      obtain ⟨finished, disk, -⟩ := (Cleans.refl ok).rollback run
      exact ⟨finished, nofun, fun _ => disk⟩

theorem marked_unsaved : ∃ frame, unsaved.pool.resident? ⟨TableFile.flags.id, 1⟩ = some frame ∧
    frame.page.mark = some ⟨2⟩ := by
  have evaluated : (unsaved.pool.resident? ⟨TableFile.flags.id, 1⟩).map
      (fun frame => frame.page.mark) = some (some ⟨2⟩) := by cbv
  exact Option.map_eq_some_iff.1 evaluated

/-- A row is committed.  Had its table been forgotten before, the commit would have been
refused, and the page of the row would be gone. -/
theorem closes_unsaved :
    (∃ after frame, commit ⟨2⟩ unsaved = (.ok (), after) ∧ Finished ⟨2⟩ unsaved after ∧
      after.pool.resident? ⟨TableFile.flags.id, 1⟩ = some (Frame.clean frame) ∧
        after.OnDisk ⟨TableFile.flags.id, 1⟩ frame.page.image) ∧
    ∃ stop after, commit ⟨2⟩ (clearCatalog unsaved).2 = (.error stop, after) ∧
      Finished ⟨2⟩ (clearCatalog unsaved).2 after ∧
        after.pool.resident? ⟨TableFile.flags.id, 1⟩ = none := by
  constructor
  · have went : (commit ⟨2⟩ unsaved).1.toBool = true := by cbv
    rcases run : commit ⟨2⟩ unsaved with ⟨stop | ⟨⟩, after⟩ <;> rw [run] at went
    · cases went
    obtain ⟨frame, there, marked⟩ := marked_unsaved
    obtain ⟨finished, saved, -⟩ := inService_unsaved.closes (.committed run)
    obtain ⟨clean, stored⟩ := saved rfl _ frame there marked
    exact ⟨after, frame, rfl, finished, clean, stored⟩
  · have refused : (commit ⟨2⟩ (clearCatalog unsaved).2).1.toBool = false := by cbv
    have gone : (commit ⟨2⟩ (clearCatalog unsaved).2).2.pool.resident?
        ⟨TableFile.flags.id, 1⟩ = none := by cbv
    rcases run : commit ⟨2⟩ (clearCatalog unsaved).2 with ⟨stop | ⟨⟩, after⟩ <;>
      rw [run] at refused gone
    · exact ⟨stop, after, rfl, (inService_unsaved.forgotten.closes (.refused run)).1, gone⟩
    · cases refused

/-! ## Ending it again -/

/-- There is nothing left to write, to drop or to release. -/
theorem Finished.complete (finished : Finished txn s after) (keep : Bool) :
    StoreAction.complete txn keep after = (.ok (), after) := by
  have none := finished.pool.dirtiedBy_eq_nil_iff.2 finished.unmarked
  have released : (after.locks.releaseAll txn).2 = after.locks := by
    apply LockTable.releaseAll_of_free
    · intro page
      rw [finished.locks, LockTable.others_others]
    · rw [finished.waiting, if_pos rfl]
  have left : releaseAll txn after = (.ok (), after) := by
    rw [releaseAll, modify_apply, released]
  unfold StoreAction.complete
  cases keep with
  | true =>
      rw [if_pos rfl, flushChangesOf, bind_apply, bind_apply, get_apply]
      simp only [none]
      exact left
  | false =>
      rw [if_neg Bool.false_ne_true, dropPages, bind_apply, modifyPool, modify_apply]
      simp only [none]
      exact left

/-- **Ending a transaction twice** is ending it once: the second time nothing changes. -/
theorem InService.complete_again (service : s.InService) {keep : Bool}
    (done : complete txn keep s = (.ok (), after)) (again : Bool) :
    complete txn again after = (.ok (), after) := by
  obtain ⟨_, intact, -⟩ := service.kept
  exact (complete_finished intact.pool service.wellMade.tables done).complete again

/-- A commit after a rollback brings nothing back. -/
theorem complete_again_unsaved : ∃ after, complete ⟨2⟩ false unsaved = (.ok (), after) ∧
    after.pool.resident? ⟨TableFile.flags.id, 1⟩ = none ∧
      complete ⟨2⟩ true after = (.ok (), after) := by
  have gone : (complete ⟨2⟩ false unsaved).2.pool.resident? ⟨TableFile.flags.id, 1⟩ = none := by cbv
  have done : complete ⟨2⟩ false unsaved = (.ok (), (complete ⟨2⟩ false unsaved).2) := rfl
  exact ⟨_, done, gone, inService_unsaved.complete_again done true⟩

end Store

end RowStore
