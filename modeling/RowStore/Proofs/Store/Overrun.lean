/-
# RowStore.Proofs.Store.Overrun -- a table with more pages than can be counted

Isolation holds as long as the pages of each file can be counted, and no longer.  A
transaction that inserts a row and commits, over and over, into a table with one row
per page makes the file longer by a page in every round (`loaded_fill`).  When page
numbers are used up the next insert fails and leaves one more page behind; from then on
the file counts as empty, although all the rows in it are committed (`overrun`).
-/
import RowStore.Proofs.Store.Isolation
import RowStore.Proofs.Store.Loading

namespace RowStore

set_option autoImplicit false

open Store Load

namespace Recorded

variable {txn : TxnId} {s : Store}

/-! ## Filling a table -/

/-- The transaction inserts the row and commits, `n` times. -/
def fill (txn : TxnId) (table : TableId) (values : List Value) : Nat → List (TxnId × Call)
  | 0 => []
  | n + 1 => fill txn table values n ++ [(txn, .insert table values), (txn, .complete true)]

theorem run_append (s : Store) (calls more : List (TxnId × Call)) :
    run s (calls ++ more) = more.foldl (fun r call => r.step call.1 call.2) (run s calls) := by
  simp [run]

/-- The load of which each row is the same. -/
def repeated (s : Store) (file : TableFile) (values : List Value) : Load :=
  ⟨s, file, fun _ => values⟩

variable {file : TableFile} {values : List Value} {bytes : List UInt8} {n : Nat}

section

variable (fresh : s.Fresh) (registered : s.catalog.file file.id = .ok file)
  (one : slotCount file.pageSize file.schema.rowBytes = 1)
  (fits : file.schema.encode values = .ok bytes)

include fresh registered fits

theorem ready_repeated : (repeated s file values).Ready :=
  ⟨fresh.blank, registered, fun _ => ⟨bytes, fits⟩⟩

include one

/-- The file has `n` pages after `n` rounds, and the row is committed on each. -/
theorem loaded_fill (txn : TxnId) (room : n < PageFile.pageLimit) :
    (repeated s file values).Loaded (run s (fill txn file.id values n)).ledger
      (run s (fill txn file.id values n)).store n := by
  have ready := ready_repeated fresh registered fits
  have slots : (repeated s file values).slots = 1 := one
  induction n with
  | zero => exact loaded_zero ready
  | succ n ih =>
      have loaded := ih (by omega)
      rw [fill, run_append, List.foldl_cons, List.foldl_cons, List.foldl_nil]
      generalize run s (fill txn file.id values n) = r at loaded ⊢
      have begun := loaded.begin txn r.store.counter
      -- Before each round all pages are written.
      have roomy : (repeated s file values).Roomy n n := by
        rw [Roomy, slots, ceilDiv_of_dvd Nat.one_pos (Nat.one_dvd n), Nat.div_one, Nat.sub_self]
        exact fresh.blank.frames
      obtain ⟨mid, inserted, loading⟩ := begun.insert ready (Nat.le_refl n) roomy
        (by rw [slots, Nat.div_one]; exact room)
      obtain ⟨after, ended, committed⟩ := loading.commit ready
      have ran : StoreAction.insertRow txn file.id values r.store =
          (.ok ((repeated s file values).place n), mid) := inserted
      simp only [step, ran, ended]
      exact committed

end

theorem contents_repeated (one : slotCount file.pageSize file.schema.rowBytes = 1) {number : Nat}
    (before : number < n) :
    (repeated s file values).contents n ⟨⟨file.id, number⟩, 0⟩ = some values := by
  refine Contents.firstRows_eq_some_iff.2 ⟨number, before, ?_, rfl⟩
  have slots : (repeated s file values).slots = 1 := one
  rw [place, slots, Nat.div_one, Nat.mod_one]
  rfl

/-- When page numbers are used up the next insert fails, and leaves a file that counts as
empty while a page of it is resident. -/
theorem overrun_of_loaded {r : Recorded} (ready : (repeated s file values).Ready)
    (loaded : (repeated s file values).Loaded r.ledger r.store n) (txn : TxnId)
    (one : slotCount file.pageSize file.schema.rowBytes = 1) (last : n + 1 = PageFile.pageLimit) :
    ∃ after, r.step txn (.insert file.id values) = ⟨after, r.ledger⟩ ∧ after.pageCount file = 0 ∧
      ∃ id frame, after.catalog.file id.table = .ok file ∧
        after.pool.resident? id = some frame ∧ frame.page.mark = none := by
  have slots : (repeated s file values).slots = 1 := one
  have registered : r.store.catalog.file file.id = .ok file := loaded.registered ready
  have pages : r.store.wholePages file = n := by
    have counted := loaded.pages
    rw [slots, ceilDiv_of_dvd Nat.one_pos (Nat.one_dvd n), Nat.div_one] at counted
    exact counted
  have begun := loaded.begin txn r.store.counter
  have packed := begun.packed ready (by rw [slots]; exact Nat.one_dvd n)
  have frames : 0 < r.store.pool.capacity := by
    rw [loaded.capacity]
    exact ready.blank.frames
  obtain ⟨bytes, fits⟩ := ready.fits n
  obtain ⟨calm, -⟩ := loaded
  obtain ⟨stop, after, failed, disk, final⟩ :=
    (calm.served frames txn).insertRow_overrun registered packed fits (by rw [pages, last])
  have walk : r.store.Walks txn after := by
    rcases StoreAction.insertRow_spec calm.orderly.pool failed with
      ⟨walk, -⟩ | ⟨id, frame, stored, same, -⟩
    · exact walk
    · cases same
  have ran : StoreAction.insertRow txn file.id values r.store = (.error stop, after) := failed
  refine ⟨after, by simp only [step, ran], ?_, ?_⟩
  · show after.wholePages file % PageFile.pageLimit = 0
    rw [(views_congr disk file).1, wholePages_grown calm.orderly.tables registered calm.bounded
      registered, if_pos rfl, pages, last]
    exact Nat.mod_self _
  · have some : n ≠ 0 := by
      rintro rfl
      exact absurd last (by decide)
    obtain ⟨number, rfl⟩ := Nat.exists_eq_succ_of_ne_zero some
    have counted : number + 1 = r.store.pageCount file := by
      rw [calm.bounded.pageCount_eq registered, pages]
    obtain ⟨frame, there⟩ := final number counted
    have listed : after.catalog.file file.id = .ok file := by
      rw [(Walks.grows walk).catalog, registered]
    exact ⟨⟨file.id, number⟩, frame, listed, there, calm.idle.clean_of_walks walk there⟩

/-- **Rows are lost** when page numbers are used up: the rows of all earlier pages are
committed, and the file decodes to none. -/
theorem overrun (fresh : s.Fresh) (txn : TxnId)
    (registered : s.catalog.file file.id = .ok file)
    (one : slotCount file.pageSize file.schema.rowBytes = 1)
    (fits : file.schema.encode values = .ok bytes) :
    ∃ calls, (run s calls).store.decodeFile file = .ok [] ∧
      ∀ number, number + 1 < PageFile.pageLimit →
        (run s calls).ledger.committed ⟨⟨file.id, number⟩, 0⟩ = some values := by
  obtain ⟨last, limit⟩ : ∃ last, last + 1 = PageFile.pageLimit := ⟨UInt32.size - 1, rfl⟩
  have ready := ready_repeated fresh registered fits
  have loaded := loaded_fill (n := last) fresh registered one fits txn (by omega)
  obtain ⟨after, stepped, wrapped, -⟩ := overrun_of_loaded ready loaded txn one limit
  refine ⟨fill txn file.id values last ++ [(txn, .insert file.id values)], ?_⟩
  rw [run_snoc, stepped]
  refine ⟨?_, fun number inside => ?_⟩
  · show after.decodeFile file = .ok []
    rw [decodeFile, wrapped]
    rfl
  · rw [loaded.committed]
    exact contents_repeated one (by omega)

/-- Isolation fails for a table of flags. -/
theorem overrun_flags : Store.flags.Fresh ∧ ∃ calls,
    (run .flags calls).store.decodeFile .flags = .ok [] ∧
      (run .flags calls).ledger.committed ⟨⟨TableFile.flags.id, 0⟩, 0⟩ = some [.bool true] := by
  obtain ⟨calls, decoded, rows⟩ := overrun fresh_flags ⟨1⟩ registered_flags
    TableFile.slotCount_flags TableFile.encode_flags
  exact ⟨fresh_flags, calls, decoded, rows 0 (by decide)⟩

end Recorded

end RowStore
