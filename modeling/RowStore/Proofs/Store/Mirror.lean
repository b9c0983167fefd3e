/-
# RowStore.Proofs.Store.Mirror -- clean pages are as they lie on disk

A resident page without a mark may be dropped at any time and never be written, so it
must be what its file holds.  `Mirrored` says that it is, and that resident pages lie
within their files: the first is what an eviction relies on, the second what keeps a
flush from making a file longer.  Every effect that a transaction can have keeps both,
and so do flushes by anyone and the loss of any pages (`Reachable.mirrored`).

The one exception is a file of which the count of pages has started again from zero.
It has pages that are resident and not counted, and the next page that is appended to
it is written over its first.
-/
import RowStore.Proofs.Store.Effects
import RowStore.Proofs.Store.Overrun

namespace RowStore

set_option autoImplicit false

open Relation

namespace Store

/-- The version of a page goes with what its file holds. -/
structure Matches (s : Store) (file : TableFile) (number : Nat) (page : Page) : Prop where
  within : number < s.wholePages file
  counted : ¬ s.Wrapped file → number < s.pageCount file
  clean : ¬ s.Wrapped file → page.mark = none → page.image = s.imageAt file number

/-- The store is in order, and each resident page goes with what its file holds. -/
structure Mirrored (s : Store) : Prop extends s.Orderly where
  matched : ∀ id frame file, s.pool.resident? id = some frame →
    s.catalog.file id.table = .ok file → s.Matches file id.number frame.page

variable {txn : TxnId} {s after : Store} {file : TableFile} {number : Nat} {page : Page}

/-! ## One page -/

theorem matches_of_read {id : PageId} (read : s.readFromDisk file id = .ok page) :
    s.Matches file id.number page := by
  obtain ⟨-, inside, made, -⟩ := readFromDisk_eq_ok_iff.1 read
  refine ⟨Nat.lt_of_lt_of_le inside (s.pageCount_le file), fun _ => inside, fun _ _ => ?_⟩
  rw [made]

/-- A file of the same length that still has the image goes with the page as before. -/
theorem Matches.of_views (found : s.Matches file number page)
    (whole : after.wholePages file = s.wholePages file)
    (image : page.image = s.imageAt file number → page.image = after.imageAt file number) :
    after.Matches file number page := by
  have before : ¬ after.Wrapped file → ¬ s.Wrapped file := mt (wrapped_congr whole).2
  refine ⟨?_, fun counts => ?_, fun counts unmarked => ?_⟩
  · rw [whole]
    exact found.within
  · rw [pageCount_congr whole]
    exact found.counted (before counts)
  · exact image (found.clean (before counts) unmarked)

theorem Matches.congr (found : s.Matches file number page) (disk : after.disk = s.disk) :
    after.Matches file number page := by
  apply found.of_views (views_congr disk file).1
  intro image
  rw [image, imageAt, imageAt, disk]

/-- A page is appended behind all pages that are counted. -/
theorem Matches.grow {table other : TableId} {held : TableFile} (tables : s.catalog.Proper)
    (registered : s.catalog.file table = .ok file) (listed : s.catalog.file other = .ok held)
    (found : s.Matches held number page) : (s.grown file).Matches held number page := by
  have before : ¬ (s.grown file).Wrapped held → ¬ s.Wrapped held :=
    fun counts wrapped => counts (wrapped.grown tables registered listed)
  refine ⟨?_, fun counts => ?_, fun counts unmarked => ?_⟩
  · have longer := (grows_putImage s file (s.pageCount file) (Image.zeros file.pageSize)).length
    exact Nat.lt_of_lt_of_le found.within (Nat.div_le_div_right (longer held.path))
  · exact Nat.lt_of_lt_of_le (found.counted (before counts))
      (pageCount_le_grown tables registered listed counts)
  · rw [imageAt_grown tables registered listed (found.counted (before counts))]
    exact found.clean (before counts) unmarked

/-! ## The five effects -/

theorem Mirrored.turn (mirrored : s.Mirrored) {pool : Pool} (consistent : pool.Consistent)
    (capacity : pool.capacity = s.pool.capacity) (each : ∀ id, s.Turnover txn pool id) :
    Mirrored { s with pool } := by
  refine ⟨mirrored.toOrderly.move (.turn s consistent capacity each), ?_⟩
  intro id frame file there registered
  rcases each id with same | ⟨gone, -, -⟩ | ⟨-, -, listed, read, now⟩
  · exact (mirrored.matched id frame file (same ▸ there) registered).congr rfl
  · simp only [gone] at there
    cases there
  · simp only [now] at there
    cases there
    simp only [registered] at listed
    cases listed
    exact (matches_of_read read).congr rfl

theorem Mirrored.grow (mirrored : s.Mirrored) {table : TableId}
    (registered : s.catalog.file table = .ok file) : (s.grown file).Mirrored := by
  refine ⟨mirrored.toOrderly.grow file, ?_⟩
  intro id frame held there listed
  exact (mirrored.matched id frame held there listed).grow mirrored.tables registered listed

theorem Mirrored.replaces (mirrored : s.Mirrored) (ordered : after.Orderly) {frame : Frame}
    (there : s.pool.resident? frame.id = some frame)
    (replaces : s.Replaces after { frame with page := page.withMark (some txn) }) :
    after.Mirrored := by
  obtain ⟨pool, rfl⟩ := replaces.store
  refine ⟨ordered, ?_⟩
  intro id now file found registered
  rcases replaces.resident_cases found with ⟨rfl, rfl⟩ | ⟨-, before⟩
  · obtain ⟨within, counted, -⟩ := mirrored.matched frame.id frame file there registered
    exact ⟨within, counted, fun _ unmarked => by cases unmarked⟩
  · exact (mirrored.matched id now file before registered).congr rfl

theorem Mirrored.written (mirrored : s.Mirrored) (flush : Flush txn s after) :
    ∃ frame file, Written txn s after frame file := by
  apply written_of_flush mirrored.toOrderly flush
  intro id frame file there registered
  exact (mirrored.matched id frame file there registered).within

theorem Mirrored.flush (mirrored : s.Mirrored) (flush : Flush txn s after) : after.Mirrored := by
  obtain ⟨frame, file, written⟩ := mirrored.written flush
  refine ⟨mirrored.toOrderly.flush flush, ?_⟩
  intro id now held found listed
  rw [written.catalog] at listed
  have whole := written.lengths id.table held listed
  have image := written.images id held listed
  rcases written.resident_cases found with ⟨rfl, rfl⟩ | ⟨elsewhere, before⟩
  · rw [if_pos rfl] at image
    have matched := mirrored.matched frame.id frame held written.there listed
    obtain ⟨within, counted, -⟩ := matched.of_views whole fun _ => image.symm
    exact ⟨within, counted, fun _ _ => image.symm⟩
  · rw [if_neg elsewhere] at image
    exact (mirrored.matched id now held before listed).of_views whole fun same =>
      same.trans image.symm

theorem Mirrored.drop (mirrored : s.Mirrored) {pool : Pool} (consistent : pool.Consistent)
    (fewer : ∀ id frame, pool.resident? id = some frame → s.pool.resident? id = some frame) :
    Mirrored { s with pool } :=
  ⟨mirrored.toOrderly.drop consistent fewer,
    fun id frame file there registered =>
      (mirrored.matched id frame file (fewer id frame there) registered).congr rfl⟩

/-- Locks do not matter as long as the store stays in order. -/
theorem Mirrored.withLocks (mirrored : s.Mirrored) {locks : LockTable}
    (ordered : Orderly { s with locks }) : Mirrored { s with locks } :=
  ⟨ordered, fun id frame file there registered =>
    (mirrored.matched id frame file there registered).congr rfl⟩

theorem Mirrored.effect (mirrored : s.Mirrored) (effect : Effect txn s after) :
    after.Mirrored := by
  have ordered := mirrored.toOrderly.effect effect
  cases effect with
  | move move =>
      cases move with
      | request r => exact mirrored.withLocks ordered
      | turn consistent capacity each => exact mirrored.turn consistent capacity each
      | grow registered _ => exact mirrored.grow registered
  | edit there held schema size sound replaces => exact mirrored.replaces ordered there replaces
  | flush flush => exact mirrored.flush flush
  | drop consistent residents =>
      apply mirrored.drop consistent
      intro id frame there
      rw [residents] at there
      exact (Option.filter_eq_some_iff.1 there).1
  | release clean => exact mirrored.withLocks ordered

theorem Mirrored.effects (mirrored : s.Mirrored) (effects : s.Effects txn after) :
    after.Mirrored := by
  induction effects with
  | refl => exact mirrored
  | tail _ effect ih => exact ih.effect effect

/-! ## Reachable stores -/

theorem Untouched.mirrored (untouched : s.Untouched) : s.Mirrored := by
  refine ⟨untouched.orderly, ?_⟩
  intro id frame file there
  rw [untouched.absent] at there
  cases there

theorem Reachable.mirrored (reachable : s.Reachable) : s.Mirrored := by
  have invariant : s.Orderly ∧ s.Mirrored := by
    refine reachable.induct ?_ ?_ ?_
    · intro s prepared
      exact prepared.untouched.mirrored
    · intro txn s after _ effect mirrored
      exact mirrored.effect effect
    · intro s pool consistent fewer mirrored
      exact mirrored.drop consistent fewer
  exact invariant.2

/-- **Clean pages.**  In every reachable store a resident page without a mark belongs to a
registered file; and unless the count of this file's pages has started again from zero,
the page is among those counted and has the image that lies in its place in the file. -/
theorem Reachable.clean_page (reachable : s.Reachable) {id : PageId} {frame : Frame}
    (there : s.pool.resident? id = some frame) (unmarked : frame.page.mark = none) :
    ∃ file, s.catalog.file id.table = .ok file ∧
      (¬ s.Wrapped file → id.number < s.pageCount file ∧
        frame.page.image = s.imageAt file id.number) := by
  have mirrored := reachable.mirrored
  obtain ⟨file, registered, -⟩ := mirrored.belongs id frame there
  have placed := mirrored.matched id frame file there registered
  exact ⟨file, registered, fun counts => ⟨placed.counted counts, placed.clean counts unmarked⟩⟩

/-- A row was inserted into a table of flags and committed. -/
def flagged : Store :=
  (flags.carryOut ⟨1⟩ (.insert TableFile.flags.id [.bool true])).carryOut ⟨1⟩ (.complete true)

theorem reachable_flagged : flagged.Reachable :=
  ((Reachable.prepared fresh_flags.prepared).called _ _).called _ _

/-- The page stayed resident. -/
theorem clean_page_flagged : ∃ frame, flagged.Reachable ∧
    flagged.pool.resident? ⟨TableFile.flags.id, 0⟩ = some frame ∧ frame.page.mark = none ∧
      0 < flagged.pageCount .flags ∧ frame.page.image = flagged.imageAt .flags 0 := by
  have evaluated : ((flagged.pool.resident? ⟨TableFile.flags.id, 0⟩).map
      (fun frame => frame.page.mark), flagged.pageCount .flags) = (some none, 1) := by cbv
  have listed : flagged.catalog.file TableFile.flags.id = .ok .flags := by cbv
  simp only [Prod.mk.injEq] at evaluated
  obtain ⟨unmarked, count⟩ := evaluated
  obtain ⟨frame, there, mark⟩ := Option.map_eq_some_iff.1 unmarked
  obtain ⟨file, registered, placed⟩ := reachable_flagged.clean_page there mark
  rw [listed] at registered
  cases registered
  have counts : ¬ flagged.Wrapped .flags := by
    rintro ⟨zero, -⟩
    rw [count] at zero
    cases zero
  obtain ⟨inside, image⟩ := placed counts
  exact ⟨frame, reachable_flagged, there, mark, inside, image⟩

/-- **A page that is not counted.**  When a file has as many pages as there are page numbers
it counts as empty, although a page of it is resident and has nothing to write. -/
theorem clean_page_uncounted : ∃ s id frame, Reachable s ∧
    s.catalog.file id.table = .ok .flags ∧ s.pool.resident? id = some frame ∧
      frame.page.mark = none ∧ s.pageCount .flags = 0 := by
  obtain ⟨last, limit⟩ : ∃ last, last + 1 = PageFile.pageLimit := ⟨UInt32.size - 1, rfl⟩
  have ready := Recorded.ready_repeated fresh_flags registered_flags TableFile.encode_flags
  have loaded := Recorded.loaded_fill (n := last) fresh_flags registered_flags
    TableFile.slotCount_flags TableFile.encode_flags ⟨1⟩ (by omega)
  obtain ⟨after, stepped, count, id, frame, registered, there, unmarked⟩ :=
    Recorded.overrun_of_loaded ready loaded ⟨1⟩ TableFile.slotCount_flags limit
  have reachable := (Recorded.reachable_run fresh_flags
    (Recorded.fill ⟨1⟩ TableFile.flags.id [.bool true] last)).called ⟨1⟩
      (.insert TableFile.flags.id [.bool true])
  rw [← store_step, stepped] at reachable
  exact ⟨after, id, frame, reachable, registered, there, unmarked, count⟩

end Store

end RowStore
