/-
# RowStore.Proofs.Store.Pinned -- a page that a transaction has read stays as it was read

A transaction that has read a page holds a lock on it until it ends, but not the page
itself: that may be dropped from the pool at any time, be loaded again from a file to
which others commit, or be written back.  `Pinned` says that whichever version of the
page can be found, in the pool or in the file if the pool has no changes of it, has a
property.  Other transactions keep a page pinned whatever they do, their commits and
rollbacks included, and so does the transaction itself as long as it does not change
the page (`Pinned.effect`, `Pinned.move`, `Pinned.flush`).

What the transaction sees of a page is therefore what it saw first, with its own edits
since then applied (`repeatable_read`).
-/
import RowStore.Proofs.Store.Mirror

namespace RowStore

set_option autoImplicit false

open Relation

/-- What is said of a page does not depend on its mark. -/
def MarkFree (P : Page → Prop) : Prop := ∀ page mark, P page → P (page.withMark mark)

namespace Store

/-- The transaction has the page locked, the page is counted if any are, and every version
of it that can be found satisfies `P`. -/
structure Pinned (s : Store) (txn : TxnId) (id : PageId) (P : Page → Prop) : Prop where
  holds : s.Holds txn id
  counted : ∀ file, s.catalog.file id.table = .ok file → ¬ s.Wrapped file →
    id.number < s.pageCount file
  resident : ∀ frame, s.pool.resident? id = some frame → P frame.page
  stored : (∀ frame, s.pool.resident? id = some frame → frame.page.mark = none) →
    ∀ file page, s.catalog.file id.table = .ok file → s.readFromDisk file id = .ok page → P page

variable {txn other : TxnId} {s after : Store} {id : PageId} {P Q : Page → Prop}

/-! ## The first read -/

/-- A clean resident page is what a read from its file gives, if that gives a page. -/
theorem Mirrored.page_eq_of_read (mirrored : s.Mirrored) {frame : Frame} {file : TableFile}
    {page : Page} (there : s.pool.resident? id = some frame) (unmarked : frame.page.mark = none)
    (registered : s.catalog.file id.table = .ok file) (read : s.readFromDisk file id = .ok page) :
    frame.page = page := by
  obtain ⟨held, listed, schema, -⟩ := mirrored.belongs id frame there
  rw [registered] at listed
  cases listed
  obtain ⟨-, inside, made, -⟩ := readFromDisk_eq_ok_iff.1 read
  have counts : ¬ s.Wrapped file := by
    rintro ⟨zero, -⟩
    omega
  have image := (mirrored.matched id frame file there registered).clean counts unmarked
  have named := (mirrored.pool.resident?_id there).2
  rw [made, ← image, ← schema, ← named, ← unmarked]

/-- A page that was read under a lock is pinned as it is. -/
theorem Mirrored.pinned (mirrored : s.Mirrored) {frame : Frame}
    (there : s.pool.resident? id = some frame) (holds : s.Holds txn id) (seen : P frame.page) :
    s.Pinned txn id P := by
  refine ⟨holds, ?_, ?_, ?_⟩
  · intro file registered counts
    exact (mirrored.matched id frame file there registered).counted counts
  · intro now found
    rw [there] at found
    cases found
    exact seen
  · intro unmarked file page registered read
    rw [← mirrored.page_eq_of_read there (unmarked frame there) registered read]
    exact seen

/-! ## Moves -/

theorem Holds.move (holds : s.Holds txn id) (move : Move other s after) : after.Holds txn id := by
  cases move with
  | request r => exact LockTable.heldMode_request_held holds
  | turn => exact holds
  | grow => exact holds

theorem readFromDisk_of_image {file : TableFile} {page : Page}
    (inside : id.number < s.pageCount file)
    (image : after.imageAt file id.number = s.imageAt file id.number)
    (read : after.readFromDisk file id = .ok page) : s.readFromDisk file id = .ok page := by
  obtain ⟨own, -, made, sound⟩ := readFromDisk_eq_ok_iff.1 read
  rw [image] at made
  exact readFromDisk_eq_ok_iff.2 ⟨own, inside, made, sound⟩

theorem Pinned.turn (pinned : s.Pinned txn id P) {pool : Pool}
    (each : ∀ id, s.Turnover other pool id) : Pinned { s with pool } txn id P := by
  refine ⟨pinned.holds, pinned.counted, ?_, ?_⟩
  · intro frame there
    rcases each id with same | ⟨gone, -, -⟩ | ⟨absent, -, registered, read, now⟩
    · exact pinned.resident frame (same ▸ there)
    · simp only [gone] at there
      cases there
    · simp only [now] at there
      cases there
      refine pinned.stored (fun held found => ?_) _ _ registered read
      rw [absent] at found
      cases found
  · intro unmarked file page registered read
    refine pinned.stored (fun held found => ?_) file page registered read
    rcases each id with same | ⟨-, there, clean⟩ | ⟨absent, -, -, -, -⟩
    · exact unmarked held (same.trans found)
    · rw [there] at found
      cases found
      simpa [Page.isDirty] using clean
    · rw [absent] at found
      cases found

theorem Pinned.grow (tables : s.catalog.Proper) (pinned : s.Pinned txn id P) {table : TableId}
    {file : TableFile} (registered : s.catalog.file table = .ok file) :
    (s.grown file).Pinned txn id P := by
  have inside : ∀ held, s.catalog.file id.table = .ok held → ¬ (s.grown file).Wrapped held →
      id.number < s.pageCount held := by
    intro held listed counts
    exact pinned.counted held listed fun wrapped =>
      counts (wrapped.grown tables registered listed)
  refine ⟨pinned.holds, ?_, pinned.resident, ?_⟩
  · intro held listed counts
    exact Nat.lt_of_lt_of_le (inside held listed counts)
      (pageCount_le_grown tables registered listed counts)
  · intro unmarked held page listed read
    have counts : ¬ (s.grown file).Wrapped held := by
      rintro ⟨zero, -⟩
      have within := (readFromDisk_eq_ok_iff.1 read).2.1
      omega
    have before := inside held listed counts
    exact pinned.stored unmarked held page listed
      (readFromDisk_of_image before (imageAt_grown tables registered listed before) read)

theorem Pinned.move (tables : s.catalog.Proper) (pinned : s.Pinned txn id P)
    (move : Move other s after) : after.Pinned txn id P := by
  have holds := pinned.holds.move move
  cases move with
  | request r => exact ⟨holds, pinned.counted, pinned.resident, pinned.stored⟩
  | turn _ _ each => exact pinned.turn each
  | grow registered _ => exact pinned.grow tables registered

theorem Pinned.walks (tables : s.catalog.Proper) (pinned : s.Pinned txn id P)
    (walk : s.Walks other after) : after.Pinned txn id P := by
  induction walk with
  | refl => exact pinned
  | tail first move ih => exact ih.move ((Walks.grows first).catalog ▸ tables) move

/-! ## Changes -/

/-- The page is exchanged for one with another property, or another page is exchanged. -/
theorem Pinned.replaces (pinned : s.Pinned txn id P) {frame : Frame} {page : Page}
    (replaces : s.Replaces after { frame with page := page.withMark (some other) })
    (here : id = frame.id → Q (page.withMark (some other)))
    (elsewhere : id ≠ frame.id → ∀ page, P page → Q page) : after.Pinned txn id Q := by
  obtain ⟨pool, rfl⟩ := replaces.store
  refine ⟨pinned.holds, pinned.counted, ?_, ?_⟩
  · intro now found
    rcases replaces.resident_cases found with ⟨same, rfl⟩ | ⟨apart, before⟩
    · exact here same
    · exact elsewhere apart _ (pinned.resident now before)
  · intro unmarked file stored registered read
    have residents := replaces.residents id
    by_cases same : id = frame.id
    · -- The new version is resident and carries a mark.
      rw [if_pos same] at residents
      cases unmarked _ residents
    · rw [if_neg same] at residents
      apply elsewhere same
      exact pinned.stored (fun held found => unmarked held (residents.trans found))
        file stored registered read

/-- Writing the page back, or any other page, changes nothing but marks. -/
theorem Pinned.flush (mirrored : s.Mirrored) (free : MarkFree P) (pinned : s.Pinned txn id P)
    (flush : Flush other s after) : after.Pinned txn id P := by
  obtain ⟨frame, file, written⟩ := mirrored.written flush
  have locks : after.locks = s.locks := locks_flushes (.single flush)
  refine ⟨?_, ?_, ?_, ?_⟩
  · rw [Holds, locks]
    exact pinned.holds
  · intro held listed counts
    rw [written.catalog] at listed
    have whole := written.lengths id.table held listed
    rw [wrapped_congr whole] at counts
    rw [pageCount_congr whole]
    exact pinned.counted held listed counts
  · intro now found
    rcases written.resident_cases found with ⟨rfl, rfl⟩ | ⟨-, before⟩
    · exact free _ _ (pinned.resident frame written.there)
    · exact pinned.resident now before
  · intro unmarked held page listed read
    rw [written.catalog] at listed
    have image := written.images id held listed
    obtain ⟨-, inside, made, -⟩ := readFromDisk_eq_ok_iff.1 read
    by_cases same : id = frame.id
    · subst same
      rw [if_pos rfl] at image
      have known := written.registered
      rw [listed] at known
      cases known
      rw [made, image, ← written.loads]
      exact free _ _ (pinned.resident frame written.there)
    · rw [if_neg same] at image
      rw [written.pageCount_eq listed] at inside
      have residents := written.residents id
      rw [if_neg same] at residents
      exact pinned.stored (fun now found => unmarked now (residents.trans found)) held page listed
        (readFromDisk_of_image inside image read)

/-- **Other transactions** keep a page pinned, whatever they do. -/
theorem Pinned.effect (mirrored : s.Mirrored) (free : MarkFree P) (pinned : s.Pinned txn id P)
    (apart : other ≠ txn) (effect : Effect other s after) : after.Pinned txn id P := by
  cases effect with
  | move move => exact pinned.move mirrored.tables move
  | @edit _ frame page there held _ _ _ replaces =>
      refine pinned.replaces replaces (fun same => ?_) fun _ _ fine => fine
      -- The page is locked by both, by one of them exclusively.
      obtain ⟨mode, found⟩ := pinned.holds
      have alone := LockTable.heldMode_eq_none_of_exclusive (mirrored.locks frame.id) held
        (Ne.symm apart)
      rw [← same, found] at alone
      cases alone
  | flush flush => exact pinned.flush mirrored free flush
  | @drop pool consistent residents =>
      have same : pool.resident? id = s.pool.resident? id :=
        (residents id).trans (mirrored.filter_foreign pinned.holds apart)
      refine ⟨pinned.holds, pinned.counted, fun frame there => ?_, fun unmarked => ?_⟩
      · exact pinned.resident frame (same ▸ there)
      · exact pinned.stored fun frame there => unmarked frame (same.trans there)
  | release clean =>
      refine ⟨?_, pinned.counted, pinned.resident, pinned.stored⟩
      obtain ⟨mode, found⟩ := pinned.holds
      refine ⟨mode, ?_⟩
      rw [LockTable.heldMode_congr_others (s.locks.others_releaseAll other id) (Ne.symm apart)]
      exact found

theorem Pinned.effects (mirrored : s.Mirrored) (free : MarkFree P) (pinned : s.Pinned txn id P)
    (apart : other ≠ txn) (effects : s.Effects other after) :
    after.Mirrored ∧ after.Pinned txn id P := by
  induction effects with
  | refl => exact ⟨mirrored, pinned⟩
  | tail _ effect ih => exact ⟨ih.1.effect effect, ih.2.effect ih.1 free apart effect⟩

/-- A call that the disk breaks off keeps pages pinned, whoever has made it. -/
theorem Pinned.broken (mirrored : s.Mirrored) (free : MarkFree P) (pinned : s.Pinned txn id P)
    {call : Call} (broken : Broken other s call after) : after.Pinned txn id P := by
  cases broken with
  | reached reads => exact pinned.walks mirrored.tables reads.walk
  | appended registered _ => exact pinned.grow mirrored.tables registered
  | written flush => exact pinned.flush mirrored free flush

/-! ## Own edits -/

/-- The rows on the page are these. -/
def Shows (id : PageId) (c : Contents) (page : Page) : Prop := ∀ slot, page.at? slot = c ⟨id, slot⟩

theorem markFree_shows (id : PageId) (c : Contents) : MarkFree (Shows id c) :=
  fun _ _ shows slot => shows slot

theorem Pinned.edits (mirrored : s.Mirrored) {c : Contents} (pinned : s.Pinned txn id (Shows id c))
    {frame : Frame} {page : Page} {e : Edit}
    (edits : Edits txn s after frame (page.withMark (some txn))) (own : e.id.page = frame.id)
    (alters : frame.page.Alters page e.id.slot e.entry) :
    after.Pinned txn id (Shows id (e.apply c)) := by
  obtain ⟨mid, walk, there, -, replaces⟩ := edits
  have before := pinned.walks mirrored.tables walk
  refine before.replaces replaces ?_ ?_
  · rintro rfl slot
    rw [Edit.apply_page own, ← before.resident frame there slot]
    exact alters.at? slot
  · intro elsewhere page shows slot
    rw [Edit.apply_elsewhere (own ▸ elsewhere)]
    exact shows slot

end Store

/-! ## Runs -/

namespace Recorded

open Store

/-- A step of a run in which the transaction does not end: a call is carried out and
recorded, or the disk breaks it off. -/
inductive Meanwhile (txn : TxnId) (r : Recorded) : Recorded → Prop where
  | carriedOut {owner : TxnId} {call : Call}
      (goes_on : owner = txn → ∀ keep, call ≠ .complete keep) : Meanwhile txn r (r.step owner call)
  | brokenOff {owner : TxnId} {call : Call} {after : Store}
      (broken : Broken owner r.store call after) : Meanwhile txn r ⟨after, r.ledger⟩

/-- The transaction finds on the page what it saw there, with its edits applied that were
noted since then. -/
structure Follows (r : Recorded) (txn : TxnId) (id : PageId) (seen : Contents)
    (noted : List Edit) : Prop where
  mirrored : r.store.Mirrored
  pinned : ∃ edits, r.ledger.pending txn = noted ++ edits ∧
    r.store.Pinned txn id (Shows id (Edit.applyAll edits seen))

variable {r after : Recorded} {txn : TxnId} {id : PageId} {seen : Contents} {noted : List Edit}

theorem Follows.worked (follows : r.Follows txn id seen noted) (worked : Worked txn r after)
    (mirrored : after.store.Mirrored) : after.Follows txn id seen noted := by
  obtain ⟨before, edits, pending, pinned⟩ := follows
  cases worked with
  | walk walk => exact ⟨mirrored, edits, pending, pinned.walks before.tables walk⟩
  | @edit _ _ _ e change own alters =>
      refine ⟨mirrored, edits ++ [e], ?_, ?_⟩
      · rw [← List.append_assoc, ← pending]
        exact if_pos rfl
      · rw [Edit.applyAll_snoc]
        exact pinned.edits before change own alters

/-- Calls of others note nothing for the transaction. -/
theorem pending_step_ne {owner : TxnId} (call : Call) (apart : txn ≠ owner) :
    (r.step owner call).ledger.pending txn = r.ledger.pending txn := by
  cases call with
  | insert table values =>
      simp only [step]
      rcases StoreAction.insertRow owner table values r.store with ⟨_ | _, last⟩
      · rfl
      · exact if_neg apart
  | delete row =>
      simp only [step]
      rcases StoreAction.deleteRow owner row r.store with ⟨_ | _, last⟩ <;> cases row.id?
      · rfl
      · rfl
      · rfl
      · exact if_neg apart
  | scan table => rfl
  | read page mode => rfl
  | complete keep =>
      simp only [step]
      rcases StoreAction.complete owner keep r.store with ⟨_ | _, last⟩
      · rfl
      · exact if_neg apart

theorem Follows.meanwhile (follows : r.Follows txn id seen noted) (step : Meanwhile txn r after) :
    after.Follows txn id seen noted := by
  have ok := follows.mirrored.toOrderly
  cases step with
  | @carriedOut owner call goes_on =>
      have effects := effects_carryOut ok owner call
      rw [← store_step] at effects
      have mirrored := follows.mirrored.effects effects
      by_cases own : owner = txn
      · subst own
        exact follows.worked (worked_step ok owner (goes_on rfl)) mirrored
      · obtain ⟨before, edits, pending, pinned⟩ := follows
        refine ⟨mirrored, edits, ?_, ?_⟩
        · rw [pending_step_ne call (Ne.symm own), pending]
        · exact (pinned.effects before (markFree_shows _ _) own effects).2
  | brokenOff broken =>
      obtain ⟨before, edits, pending, pinned⟩ := follows
      exact ⟨before.effects broken.effects, edits, pending,
        pinned.broken before (markFree_shows _ _) broken⟩

theorem Follows.run (follows : r.Follows txn id seen noted)
    (meanwhile : ReflTransGen (Meanwhile txn) r after) : after.Follows txn id seen noted := by
  induction meanwhile with
  | refl => exact follows
  | tail _ step ih => exact ih.meanwhile step

/-- **Repeatable reads.**  A transaction that has read a page and reads it again before it
ends, whatever has happened in between, finds the rows that it saw first, with its own
edits since then applied. -/
theorem repeatable_read {mode again : LockMode} {first second : Frame}
    (reachable : r.store.Reachable)
    (read : (StoreAction.readPage txn id mode r.store).1 = .ok first)
    (meanwhile : ReflTransGen (Meanwhile txn) (r.step txn (.read id mode)) after)
    (reread : (StoreAction.readPage txn id again after.store).1 = .ok second) :
    ∃ edits, after.ledger.pending txn = r.ledger.pending txn ++ edits ∧
      ∀ slot, second.page.at? slot =
        Edit.applyAll edits (fun row => first.page.at? row.slot) ⟨id, slot⟩ := by
  have mirrored := reachable.mirrored
  have begun : (r.step txn (.read id mode)).Follows txn id (fun row => first.page.at? row.slot)
      (r.ledger.pending txn) := by
    rcases ran : StoreAction.readPage txn id mode r.store with ⟨answer, mid⟩
    rw [ran] at read
    subst read
    obtain ⟨reads, found⟩ := StoreAction.readPage_spec mirrored.pool ran
    obtain ⟨there, held, holds, -⟩ := found first rfl
    have still := mirrored.effects (Walks.effects reads.walk)
    simp only [step, ran]
    refine ⟨still, [], (List.append_nil _).symm, still.pinned there ⟨held, holds⟩ ?_⟩
    intro slot
    rfl
  obtain ⟨last, edits, pending, pinned⟩ := begun.run meanwhile
  refine ⟨edits, pending, ?_⟩
  rcases ran : StoreAction.readPage txn id again after.store with ⟨answer, final⟩
  rw [ran] at reread
  subst reread
  obtain ⟨reads, found⟩ := StoreAction.readPage_spec last.pool ran
  obtain ⟨there, -⟩ := found second rfl
  exact (pinned.walks last.tables reads.walk).resident second there

/-- Three rows were committed, each on a page of its own. -/
def threeRows : Recorded := run .flags (fill ⟨1⟩ TableFile.flags.id [.bool true] 3)

/-- One transaction has read the first page.  Then another has deleted the row on the second
and committed, and has read the third. -/
def meantime : Recorded :=
  (((threeRows.step ⟨2⟩ (.read ⟨TableFile.flags.id, 0⟩ .shared)).step ⟨3⟩
    (.delete ⟨some ⟨⟨TableFile.flags.id, 1⟩, 0⟩, [.bool true]⟩)).step ⟨3⟩ (.complete true)).step ⟨3⟩
      (.read ⟨TableFile.flags.id, 2⟩ .exclusive)

/-- The first page was dropped in the meantime; it is loaded again with the same row. -/
theorem repeatable_read_evicted :
    ReflTransGen (Meanwhile ⟨2⟩)
      (threeRows.step ⟨2⟩ (.read ⟨TableFile.flags.id, 0⟩ .shared)) meantime ∧
    meantime.store.pool.resident? ⟨TableFile.flags.id, 0⟩ = none ∧ ∃ first second : Frame,
      (StoreAction.readPage ⟨2⟩ ⟨TableFile.flags.id, 0⟩ .shared threeRows.store).1 = .ok first ∧
      (StoreAction.readPage ⟨2⟩ ⟨TableFile.flags.id, 0⟩ .exclusive meantime.store).1 = .ok second ∧
      ∀ slot, second.page.at? slot = first.page.at? slot := by
  have evaluated : ((meantime.store.pool.resident? ⟨TableFile.flags.id, 0⟩).isNone,
      (StoreAction.readPage ⟨2⟩ ⟨TableFile.flags.id, 0⟩ .shared threeRows.store).1.toBool,
      (StoreAction.readPage ⟨2⟩ ⟨TableFile.flags.id, 0⟩ .exclusive meantime.store).1.toBool,
      threeRows.ledger.pending ⟨2⟩, meantime.ledger.pending ⟨2⟩) = (true, true, true, [], []) := by
    cbv
  simp only [Prod.mk.injEq] at evaluated
  obtain ⟨dropped, reads, rereads, before, now⟩ := evaluated
  obtain ⟨first, read⟩ := exists_ok_of_toBool reads
  obtain ⟨second, reread⟩ := exists_ok_of_toBool rereads
  have other : (⟨3⟩ : TxnId) ≠ ⟨2⟩ := by decide
  have between : ReflTransGen (Meanwhile ⟨2⟩)
      (threeRows.step ⟨2⟩ (.read ⟨TableFile.flags.id, 0⟩ .shared)) meantime :=
    ((ReflTransGen.single (.carriedOut fun same => absurd same other)).tail
      (.carriedOut fun same => absurd same other)).tail
        (.carriedOut fun same => absurd same other)
  have reachable : threeRows.store.Reachable := reachable_run fresh_flags _
  obtain ⟨edits, pending, same⟩ := repeatable_read reachable read between reread
  rw [now, before, List.nil_append] at pending
  subst pending
  exact ⟨between, Option.isNone_iff_eq_none.1 dropped, first, second, read, reread, same⟩

end Recorded

end RowStore
