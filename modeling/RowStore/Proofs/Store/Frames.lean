/-
# RowStore.Proofs.Store.Frames -- no frame is lost and no page is resident twice

The directory, the free list and the order of the uses are kept apart and changed piece by
piece, with an eviction in the middle of an installation.  `Accounted` says that they agree
at the end of every call (`accounted_of_uses`): the directory and the frames name each other,
and every frame is either occupied, and then its uses are noted once, or listed once as free.

Of the rest of the store nothing is assumed.  A use may answer or fail; it may be broken off
by the disk; and between two uses the files, the catalog and the locks may become anything.
Each use comes with the pages that it accesses (`UseOf`), so uses one after the other have a
history (`Logged`).
-/
import RowStore.Proofs.Store.Accesses

namespace RowStore

set_option autoImplicit false

open Relation

namespace Pool

/-- Each of so many frames is accounted for, and so is each resident page. -/
structure Accounted (p : Pool) (capacity : Nat) : Prop where
  frames : p.capacity = capacity
  /-- The directory and the frames say the same. -/
  directory : ∀ id index, p.directory.get? id = some index ↔
    ∃ frame, p.frame? index = some frame ∧ frame.id = id
  /-- A frame records its page under the page's own id. -/
  named : ∀ index frame, p.frame? index = some frame → frame.page.id = frame.id
  /-- The free frames are the empty ones. -/
  free : ∀ index, index ∈ p.free ↔ index < capacity ∧ p.frame? index = none
  freeOnce : p.free.Nodup
  /-- Uses are noted of the occupied frames. -/
  tracked : ∀ index, index ∈ p.recency.order ↔ ∃ frame, p.frame? index = some frame
  trackedOnce : p.recency.order.Nodup
  /-- No page is resident in two frames. -/
  alone : ∀ index other frame held, p.frame? index = some frame →
    p.frame? other = some held → frame.id = held.id → index = other
  few : p.residents.length ≤ capacity
  /-- No frame is lost. -/
  whole : p.free.length + p.residents.length = capacity

variable {p : Pool}

theorem Consistent.accounted (ok : p.Consistent) : p.Accounted p.capacity := by
  have total := ok.length_free_add_order
  rw [← ok.length_residents] at total
  refine ⟨rfl, fun id index => ⟨ok.located id index, ?_⟩, ok.named, fun index => ?_, ok.freeOnce,
    ok.tracked, ok.trackedOnce, fun index other frame held => ok.index_unique, by omega, total⟩
  · rintro ⟨frame, occupied, rfl⟩
    exact ok.listed index frame occupied
  · simp [ok.free index]

end Pool

namespace Store

/-! ## Uses of the pool -/

/-- One use of the pool with the pages that it accesses, whatever it answers, or something
that passes the pool by.

A call on rows that the disk breaks off has made a part of its uses of single pages. -/
inductive UseOf : Store → List PageId → Store → Prop where
  /-- Files, catalog, locks and settings may become anything. -/
  | beside {s after : Store} (same : after.pool = s.pool) : UseOf s [] after
  | called (s : Store) (txn : TxnId) (call : Call) :
      UseOf s (s.accesses txn call) (s.carryOut txn call)
  /-- The action changes the page that it is given, as all calls on pages do, and puts no
  other page in its place. -/
  | changed {α : Type} (s : Store) (txn : TxnId) (id : PageId) (action : PageAction α)
      (own : ∀ page, (action page).2.id = page.id) :
      UseOf s (Accesses.changePage txn id s) (StoreAction.changePage txn id action s).2
  /-- Who was given a page may change it later, without asking for it again. -/
  | handled (s : Store) (index : Nat) (page : Page)
      (own : ∀ frame, s.pool.frame? index = some frame → page.id = frame.page.id) :
      UseOf s [] { s with pool := s.pool.setPage index page }
  /-- A part of a flush. -/
  | wroteBack (s : Store) (index : Nat) : UseOf s [] (StoreAction.writeBack index s).2
  | flushedPage (s : Store) (id : PageId) :
      UseOf s (Accesses.lookup id s) (StoreAction.flushPage id s).2
  | flushedChanges (s : Store) (txn : TxnId) : UseOf s [] (StoreAction.flushChangesOf txn s).2
  | flushed (s : Store) : UseOf s [] (StoreAction.flush s).2
  | discarded (s : Store) (id : PageId) : UseOf s [] (StoreAction.discardPage id s).2
  | created (s : Store) (name : String) (schema : Schema) :
      UseOf s [] (StoreAction.createTable name schema s).2
  | attached (s : Store) (name : String) (schema : Schema) :
      UseOf s [] (StoreAction.openTable name schema s).2

/-- One use of the pool. -/
def Use (s after : Store) : Prop := ∃ accessed, UseOf s accessed after

/-- Uses one after the other, with the history of their accesses. -/
inductive Logged (start : Store) : List PageId → Store → Prop where
  | refl : Logged start [] start
  | tail {s after : Store} {history latest : List PageId} (before : Logged start history s)
      (use : UseOf s latest after) : Logged start (history ++ latest) after

/-- The pool is consistent and has so many frames. -/
structure Intact (s : Store) (capacity : Nat) : Prop where
  pool : s.pool.Consistent
  frames : s.pool.capacity = capacity

variable {txn : TxnId} {s after : Store} {capacity : Nat}

/-- Only the pool counts. -/
theorem Intact.congr (intact : s.Intact capacity) (same : after.pool = s.pool) :
    after.Intact capacity :=
  ⟨same ▸ intact.pool, same ▸ intact.frames⟩

theorem Intact.walks (intact : s.Intact capacity) (walk : s.Walks txn after) :
    after.Intact capacity :=
  ⟨walk.consistent intact.pool, (Walks.capacity walk).trans intact.frames⟩

theorem Intact.edits {frame : Frame} {page : Page} (intact : s.Intact capacity)
    (edits : Edits txn s after frame page) : after.Intact capacity := by
  obtain ⟨mid, walk, -, -, replaces⟩ := edits
  exact ⟨replaces.consistent, replaces.capacity.trans (intact.walks walk).frames⟩

theorem Intact.setPage (intact : s.Intact capacity) {index : Nat} {page : Page}
    (own : ∀ frame, s.pool.frame? index = some frame → page.id = frame.page.id) :
    Intact { s with pool := s.pool.setPage index page } capacity := by
  refine ⟨?_, (Pool.capacity_setPage _ _ _).trans intact.frames⟩
  cases occupied : s.pool.frame? index with
  | none =>
      rw [Pool.setPage, occupied]
      exact intact.pool
  | some frame =>
      have named := intact.pool.named index frame occupied
      exact (intact.pool.setPage occupied ((own frame occupied).trans named)).1

theorem Intact.foldl_remove (intact : s.Intact capacity) (pages : List PageId) :
    Intact { s with pool := pages.foldl Pool.remove s.pool } capacity :=
  ⟨(intact.pool.foldl_remove pages).1, (Pool.capacity_foldl_remove pages _).trans intact.frames⟩

/-! ## Writing back and dropping -/

theorem writeToDisk_same {file : TableFile} {page : Page}
    (written : s.writeToDisk file page = .ok after) :
    after.settings = s.settings ∧ after.catalog = s.catalog ∧ after.pool = s.pool := by
  unfold writeToDisk at written
  repeat' split at written
  all_goals cases written
  exact ⟨rfl, rfl, rfl⟩

/-- Writing back does nothing, or a page gets to its file and its mark is cleared. -/
theorem writeBack_cases (s : Store) (index : Nat) :
    (StoreAction.writeBack index s).2 = s ∨ ∃ frame file written,
      s.pool.frame? index = some frame ∧ s.writeToDisk file frame.page = .ok written ∧
        (StoreAction.writeBack index s).2 =
          { written with pool := written.pool.setPage index (frame.page.withMark none) } := by
  rcases run : StoreAction.writeBack index s with ⟨answer, after⟩
  unfold StoreAction.writeBack at run
  rw [Action.bind_apply, Action.get_apply] at run
  simp only at run
  cases occupied : s.pool.frame? index with
  | none =>
      rw [occupied] at run
      cases run
      exact Or.inl rfl
  | some frame =>
      simp only [occupied] at run
      split at run
      · rcases Action.bind_cases run with ⟨stop, unknown, -⟩ | ⟨file, start, looked, later⟩
        · exact Or.inl (StoreAction.query_state unknown)
        obtain rfl := StoreAction.query_state looked
        rcases Action.bind_cases later with ⟨stop, failed, -⟩ | ⟨written, mid, wrote, last⟩
        · exact Or.inl (StoreAction.query_state failed)
        obtain ⟨made, rfl⟩ := StoreAction.query_ok wrote
        cases last
        exact Or.inr ⟨frame, file, written, rfl, made, rfl⟩
      · cases run
        exact Or.inl rfl

/-- What holds of a store outlasts cleared marks and dropped pages, and does not look at the
files, the locks or the counter. -/
structure Durable (Holds : Store → Prop) : Prop where
  beside : ∀ {s after : Store}, after.settings = s.settings → after.catalog = s.catalog →
    after.pool = s.pool → Holds s → Holds after
  cleared : ∀ {s : Store} {index : Nat} {frame : Frame}, s.pool.frame? index = some frame →
    Holds s → Holds { s with pool := s.pool.setPage index (frame.page.withMark none) }
  dropped : ∀ {s : Store} (pages : List PageId), Holds s →
    Holds { s with pool := pages.foldl Pool.remove s.pool }

section

variable {Holds : Store → Prop} (durable : Durable Holds)

include durable

theorem Durable.writeBack (holds : Holds s) (index : Nat) :
    Holds (StoreAction.writeBack index s).2 := by
  rcases writeBack_cases s index with same | ⟨frame, file, written, occupied, made, same⟩
  · rw [same]
    exact holds
  · obtain ⟨settings, catalog, pool⟩ := writeToDisk_same made
    rw [same]
    exact durable.cleared (pool ▸ occupied) (durable.beside settings catalog pool holds)

theorem Durable.forM_writeBack (holds : Holds s) (listed : List (Nat × Frame)) :
    Holds ((forM listed fun e => StoreAction.writeBack e.1 : StoreAction Unit) s).2 := by
  induction listed generalizing s with
  | nil => exact holds
  | cons e rest ih =>
      have first := durable.writeBack holds e.1
      rw [List.forM_cons, Action.bind_apply]
      rcases run : StoreAction.writeBack e.1 s with ⟨_ | _, mid⟩ <;> rw [run] at first
      · exact first
      · exact ih first

theorem Durable.flushChangesOf (holds : Holds s) (txn : TxnId) :
    Holds (StoreAction.flushChangesOf txn s).2 :=
  durable.forM_writeBack holds (s.pool.dirtiedBy txn)

/-- A flush of a page looks at it first. -/
theorem Durable.flushPage {id : PageId} (looked : Holds { s with pool := (s.pool.lookup id).2 }) :
    Holds (StoreAction.flushPage id s).2 := by
  unfold StoreAction.flushPage
  rw [Action.bind_apply, StoreAction.lookup_apply]
  cases s.pool.resident? id with
  | none => exact looked
  | some frame =>
      simp only
      rw [Action.bind_apply, Action.get_apply]
      simp only
      cases (s.pool.lookup id).2.directory.get? id with
      | none => exact looked
      | some index => exact durable.writeBack looked index

theorem Durable.complete (holds : Holds s) (txn : TxnId) (keep : Bool) :
    Holds (StoreAction.complete txn keep s).2 := by
  cases keep with
  | true =>
      have flushed := durable.flushChangesOf holds txn
      unfold StoreAction.complete
      rw [if_pos rfl, Action.bind_apply]
      rcases run : StoreAction.flushChangesOf txn s with ⟨_ | _, mid⟩ <;> rw [run] at flushed
      · exact flushed
      · refine durable.beside ?_ ?_ ?_ flushed <;> rfl
  | false =>
      have dropped := durable.dropped ((s.pool.dirtiedBy txn).map fun e => e.2.id) holds
      rw [List.foldl_map] at dropped
      refine durable.beside ?_ ?_ ?_ dropped <;> rfl

end

theorem Intact.lookup (intact : s.Intact capacity) (id : PageId) :
    Intact { s with pool := (s.pool.lookup id).2 } capacity :=
  ⟨intact.pool.lookup id, (Pool.capacity_lookup _ _).trans intact.frames⟩

theorem durable_intact (capacity : Nat) : Durable fun s => s.Intact capacity where
  beside := fun _ _ same intact => intact.congr same
  cleared := fun occupied intact => intact.setPage fun held found => by
    rw [occupied] at found
    cases found
    rfl
  dropped := fun pages intact => intact.foldl_remove pages

/-! ## Every use -/

theorem Intact.carryOut (intact : s.Intact capacity) (txn : TxnId) (call : Call) :
    (s.carryOut txn call).Intact capacity := by
  cases call with
  | insert table values =>
      rcases StoreAction.insertRow_spec intact.pool rfl with ⟨walk, -⟩ | ⟨_, _, _, -, -, edits⟩
      · exact intact.walks walk
      · exact intact.edits edits
  | delete row =>
      rcases StoreAction.deleteRow_spec intact.pool rfl with ⟨walk, -⟩ | ⟨_, _, _, -, -, -, edits⟩
      · exact intact.walks walk
      · exact intact.edits edits
  | scan table => exact intact.walks (StoreAction.scan_spec intact.pool rfl).1.walk
  | read page mode => exact intact.walks (StoreAction.readPage_spec intact.pool rfl).1.walk
  | complete keep => exact (durable_intact capacity).complete intact txn keep

theorem Intact.changePage {α : Type} (intact : s.Intact capacity) {id : PageId}
    {action : PageAction α} (own : ∀ page, (action page).2.id = page.id) :
    (StoreAction.changePage txn id action s).2.Intact capacity := by
  rcases StoreAction.changePage_spec intact.pool own rfl with ⟨reads, -⟩ | ⟨frame, -, changes, -⟩
  · exact intact.walks reads.walk
  · exact intact.edits changes.edits

theorem Intact.createTable (intact : s.Intact capacity) (name : String) (schema : Schema) :
    (StoreAction.createTable name schema s).2.Intact capacity := by
  rcases run : StoreAction.createTable name schema s with ⟨answer, after⟩
  show after.Intact capacity
  rcases createTable_spec run with rfl | ⟨path, rfl | ⟨file, -, rfl⟩⟩
  · exact intact
  · exact intact.congr rfl
  · have dropped := intact.foldl_remove
      (s.pool.residents.filter fun id => decide (id.table = file.id))
    exact dropped.congr rfl

theorem Intact.openTable (intact : s.Intact capacity) (name : String) (schema : Schema) :
    (StoreAction.openTable name schema s).2.Intact capacity := by
  rcases run : StoreAction.openTable name schema s with ⟨answer, after⟩
  show after.Intact capacity
  obtain ⟨start, origin, ending⟩ := openTable_spec run
  have begun : start.Intact capacity := by
    rcases origin with rfl | ⟨path, -, rfl⟩
    · exact intact
    · exact intact.congr rfl
  rcases ending with rfl | ⟨path, file, -, rfl⟩
  · exact begun
  · exact begun.congr rfl

theorem Intact.use (intact : s.Intact capacity) (use : Use s after) : after.Intact capacity := by
  obtain ⟨accessed, use⟩ := use
  cases use with
  | beside same => exact intact.congr same
  | called _ txn call => exact intact.carryOut txn call
  | changed _ txn id action own => exact intact.changePage own
  | handled _ index page own => exact intact.setPage own
  | wroteBack _ index => exact (durable_intact capacity).writeBack intact index
  | flushedPage _ id => exact (durable_intact capacity).flushPage (intact.lookup id)
  | flushedChanges _ txn => exact (durable_intact capacity).flushChangesOf intact txn
  | flushed => exact (durable_intact capacity).forM_writeBack intact s.pool.occupied
  | discarded _ id => exact intact.foldl_remove [id]
  | created _ name schema => exact intact.createTable name schema
  | attached _ name schema => exact intact.openTable name schema

/-- **The books of the pool.**  Whatever uses are made of a pool that began empty, every
frame and every resident page stay accounted for.  A page that is changed in the pool keeps
its own id (`UseOf.changed`, `UseOf.handled`), which no call on pages changes. -/
theorem accounted_of_uses {start : Store} (empty : start.pool = .new capacity)
    (uses : ReflTransGen Use start s) : s.pool.Accounted capacity := by
  have intact : s.Intact capacity := by
    induction uses with
    | refl => exact ⟨empty ▸ Pool.consistent_new capacity, by simp [empty, Pool.capacity, Pool.new]⟩
    | tail _ use ih => exact ih.use use
  exact intact.frames ▸ intact.pool.accounted

/-! ## Histories -/

theorem Logged.uses {start : Store} {history : List PageId} (logged : start.Logged history s) :
    ReflTransGen Use start s := by
  induction logged with
  | refl => exact .refl
  | tail _ use ih => exact ih.tail ⟨_, use⟩

/-- All uses can be logged. -/
theorem exists_logged {start : Store} (uses : ReflTransGen Use start s) :
    ∃ history, start.Logged history s := by
  induction uses with
  | refl => exact ⟨[], .refl⟩
  | tail _ use ih =>
      obtain ⟨history, before⟩ := ih
      obtain ⟨latest, last⟩ := use
      exact ⟨history ++ latest, before.tail last⟩

/-- The accesses of calls one after the other. -/
def accessesOf (s : Store) : List (TxnId × Call) → List PageId
  | [] => []
  | call :: rest => s.accesses call.1 call.2 ++ accessesOf (s.carryOut call.1 call.2) rest

/-- Calls one after the other, whatever they answer, are uses. -/
theorem logged_carryOut {start : Store} {history : List PageId} (logged : start.Logged history s)
    (calls : List (TxnId × Call)) : start.Logged (history ++ s.accessesOf calls)
      (calls.foldl (fun s call => s.carryOut call.1 call.2) s) := by
  induction calls generalizing s history with
  | nil => exact (List.append_nil history).symm ▸ logged
  | cons call rest ih =>
      rw [accessesOf, ← List.append_assoc]
      exact ih (logged.tail (.called s call.1 call.2))

/-- Three transactions commit a row each, and a fourth deletes a row without naming it, which
is refused.  No page has room for a second row. -/
def evictingCalls : List (TxnId × Call) :=
  [(⟨1⟩, .insert TableFile.flags.id [.bool true]), (⟨1⟩, .complete true),
    (⟨2⟩, .insert TableFile.flags.id [.bool true]), (⟨2⟩, .complete true),
    (⟨3⟩, .insert TableFile.flags.id [.bool true]), (⟨3⟩, .complete true),
    (⟨4⟩, .delete ⟨none, [.bool true]⟩)]

/-- The store after these calls: three pages have been in its two frames. -/
def evicted : Store := evictingCalls.foldl (fun s call => s.carryOut call.1 call.2) flags

/-- The first page is gone, and the other two have taken both frames. -/
theorem accounted_evicted : flags.pool = .new 2 ∧ ReflTransGen Use flags evicted ∧
    evicted.pool.Accounted 2 ∧ evicted.pool.directory.get? ⟨TableFile.flags.id, 0⟩ = none ∧
      evicted.pool.free = [] ∧ evicted.pool.residents.length = 2 := by
  have uses : ReflTransGen Use flags evicted := (logged_carryOut .refl evictingCalls).uses
  have books : (evicted.pool.directory.get? ⟨TableFile.flags.id, 0⟩, evicted.pool.free) =
      (none, []) := by cbv
  obtain ⟨gone, full⟩ := Prod.mk.inj books
  have accounted := accounted_of_uses rfl uses
  have total := accounted.whole
  rw [full] at total
  exact ⟨rfl, uses, accounted, gone, full, by simpa using total⟩

end Store

end RowStore
