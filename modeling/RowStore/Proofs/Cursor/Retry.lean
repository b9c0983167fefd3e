/-
# RowStore.Proofs.Cursor.Retry -- scans in which calls fail and are repeated

A transaction takes the rows of a table one by one and looks ahead as it likes.  A call can
stop: the pool is full of changed pages, a lock would close a circle, the disk fails.  The
transaction calls again later, when the cause is gone, and meanwhile nothing happens to the
rows of the table (`Drawn`).

A cursor passes a page before it fetches it and does not go back when the fetch stops, so
each such call takes the rows of one page out of the scan.  What was answered when the first
call finds no more row is the table without these pages (`Drawn.listing_but_lost`); only a
scan in which no call has stopped is certain to be whole.
-/
import RowStore.Proofs.Cursor.Position
import RowStore.Proofs.Store.Isolation

namespace RowStore

set_option autoImplicit false

namespace Contents

/-- The contents without the rows of some pages of a table. -/
def without (c : Contents) (table : TableId) (lost : List Nat) : Contents := fun id =>
  if id.page.table = table ∧ id.page.number ∈ lost then none else c id

theorem without_eq_some_iff {c : Contents} {table : TableId} {lost : List Nat} {id : RecordId}
    {values : List Value} : c.without table lost id = some values ↔
      ¬ (id.page.table = table ∧ id.page.number ∈ lost) ∧ c id = some values := by
  unfold without
  split <;> simp [*]

theorem without_nil (c : Contents) (table : TableId) : c.without table [] = c := by
  funext id
  simp [without]

end Contents

namespace Cursor

variable {file : TableFile} {txn : TxnId} {contents : Contents} {c : Cursor}
  {rows : List Row} {lost : List Nat} {s : Store}

/-- A position behind all pages. -/
theorem Position.listing (pos : Position file txn contents c rows lost)
    (sees : s.Sees txn file contents) (none : c.ready = [])
    (passed : s.pageCount file ≤ c.nextPage) :
    (contents.without file.id lost).Listing file.id rows := by
  have lists := pos.lists
  rw [none, List.append_nil] at lists
  refine ⟨lists.ordered (List.pairwise_lt_range.filter _), fun row => ?_⟩
  rw [lists.mem_iff]
  constructor
  · rintro ⟨number, member, slot, values, rfl, stored⟩
    obtain ⟨-, kept⟩ := List.mem_filter.1 member
    refine ⟨_, values, rfl, rfl, Contents.without_eq_some_iff.2 ⟨?_, stored⟩⟩
    rintro ⟨-, gone⟩
    exact of_decide_eq_true kept gone
  · rintro ⟨⟨⟨table, number⟩, slot⟩, values, rfl, rfl, found⟩
    obtain ⟨kept, stored⟩ := Contents.without_eq_some_iff.1 found
    have inside := Nat.lt_of_lt_of_le (sees.inside stored rfl) passed
    have still : number ∉ lost := fun gone => kept ⟨rfl, gone⟩
    exact ⟨number, List.mem_filter.2 ⟨List.mem_range.2 inside, decide_eq_true still⟩, slot, values,
      rfl, stored⟩

/-- What a scan has come to: the cursor, the rows that it has answered, and for each call
that has stopped the page that it passed last.  Every call finds the rows of the table as
they were at the beginning, and otherwise any store. -/
inductive Drawn (file : TableFile) (txn : TxnId) (contents : Contents) :
    Cursor → List Row → List Nat → Prop where
  /-- The cursor was opened or rewound. -/
  | opened (c : Cursor) (s : Store) (own : c.file = file) (mine : c.txn = txn) :
      Drawn file txn contents (openFirst (c, s)).2.1 [] []
  | answered {c : Cursor} {rows : List Row} {lost : List Nat} {s : Store} {row : Row}
      (before : Drawn file txn contents c rows lost) (sees : s.Sees txn file contents)
      (answer : (next (c, s)).1 = .ok (some row)) :
      Drawn file txn contents (next (c, s)).2.1 (rows ++ [row]) lost
  | looked {c : Cursor} {rows : List Row} {lost : List Nat} {s : Store} {more : Bool}
      (before : Drawn file txn contents c rows lost) (sees : s.Sees txn file contents)
      (answer : (hasNext (c, s)).1 = .ok more) :
      Drawn file txn contents (hasNext (c, s)).2.1 rows lost
  | stopped {c : Cursor} {rows : List Row} {lost : List Nat} {s : Store} {stop : Stop}
      (before : Drawn file txn contents c rows lost) (sees : s.Sees txn file contents)
      (answer : (next (c, s)).1 = .error stop) :
      Drawn file txn contents (next (c, s)).2.1 rows (lost ++ [(next (c, s)).2.1.nextPage - 1])
  | stoppedLook {c : Cursor} {rows : List Row} {lost : List Nat} {s : Store} {stop : Stop}
      (before : Drawn file txn contents c rows lost) (sees : s.Sees txn file contents)
      (answer : (hasNext (c, s)).1 = .error stop) :
      Drawn file txn contents (hasNext (c, s)).2.1 rows
        (lost ++ [(hasNext (c, s)).2.1.nextPage - 1])
  /-- The disk broke a call off, which had passed a page without rows until then. -/
  | passed {c : Cursor} {rows : List Row} {lost : List Nat}
      (before : Drawn file txn contents c rows lost) (none : c.ready = [])
      (empty : ∀ slot, contents ⟨⟨file.id, c.nextPage⟩, slot⟩ = Option.none) (known : Nat) :
      Drawn file txn contents (c.passed known) rows lost
  /-- The disk broke a call off while it read a page. -/
  | unread {c : Cursor} {rows : List Row} {lost : List Nat}
      (before : Drawn file txn contents c rows lost) (none : c.ready = []) (known : Nat) :
      Drawn file txn contents (c.passed known) rows (lost ++ [c.nextPage])

theorem Drawn.position (drawn : Drawn file txn contents c rows lost) :
    Position file txn contents c rows lost := by
  induction drawn with
  | opened c s own mine => exact position_openFirst own mine s
  | @answered c _ _ s _ _ sees answer ih =>
      have left := (ih.next sees (Prod.ext answer rfl : next (c, s) = (_, _, _))).2
      exact left
  | @looked c _ _ s _ _ sees answer ih =>
      exact (ih.hasNext sees (Prod.ext answer rfl : hasNext (c, s) = (_, _, _))).2
  | @stopped c _ _ s _ _ sees answer ih =>
      exact (ih.next sees (Prod.ext answer rfl : next (c, s) = (_, _, _))).2.1
  | @stoppedLook c _ _ s _ _ sees answer ih =>
      exact (ih.hasNext sees (Prod.ext answer rfl : hasNext (c, s) = (_, _, _))).2.1
  | @passed c rows lost _ none empty known ih =>
      have listing : contents.PageListing ⟨file.id, c.nextPage⟩ [] := by
        refine ⟨.nil, fun row => ⟨nofun, ?_⟩⟩
        rintro ⟨slot, values, -, stored⟩
        rw [empty] at stored
        cases stored
      have same : { c.passed known with ready := [] } = c.passed known := by
        rw [← none]
        rfl
      exact same ▸ ih.fetched none listing known
  | unread _ _ known ih => exact ih.missed known

/-- Whatever a call answers, the transaction sees the same afterwards. -/
theorem Drawn.sees_next (drawn : Drawn file txn contents c rows lost)
    (sees : s.Sees txn file contents) : (next (c, s)).2.2.Sees txn file contents := by
  rcases run : next (c, s) with ⟨answer, ⟨now, after⟩⟩
  exact (drawn.position.next sees run).1

/-- **What a scan answers** until the first call that finds no more row: each row of the
table once and in order, except for the rows of the pages at which calls have stopped, one
page for each of these calls. -/
theorem Drawn.listing_but_lost (drawn : Drawn file txn contents c rows lost)
    (sees : s.Sees txn file contents) (ended : (next (c, s)).1 = .ok none) :
    (contents.without file.id lost).Listing file.id rows ∧ lost.Nodup ∧
      (lost = [] → contents.Listing file.id rows) := by
  rcases run : next (c, s) with ⟨answer, ⟨now, after⟩⟩
  rw [run] at ended
  cases ended
  obtain ⟨still, pos, none, passed⟩ := drawn.position.next sees run
  have listing := pos.listing still none passed
  refine ⟨listing, pos.once, ?_⟩
  rintro rfl
  exact contents.without_nil file.id ▸ listing

theorem sees_run {start : Store} (fresh : start.Fresh) (calls : List (TxnId × Call))
    (bounded : (Recorded.run start calls).store.Bounded)
    (registered : (Recorded.run start calls).store.catalog.file file.id = .ok file)
    (txn : TxnId) : (Recorded.run start calls).store.Sees txn file
      ((Recorded.run start calls).ledger.view txn) :=
  ⟨Recorded.orderly_run fresh calls, bounded, registered, _,
    Recorded.agrees_run fresh calls bounded, fun _ _ => rfl⟩

/-! ## A scan through a pool that is full for a while

A row is on each page of a table of flags.  The first is committed, and the second
transaction has filled the pool with the other two, which it has not committed yet. -/

def crowdedCalls : List (TxnId × Call) :=
  [(⟨1⟩, .insert TableFile.flags.id [.bool true]), (⟨1⟩, .complete true),
    (⟨2⟩, .insert TableFile.flags.id [.bool false]), (⟨2⟩, .insert TableFile.flags.id [.bool false])]

def crowded : Recorded := .run .flags crowdedCalls

def begun : Cursor := (openFirst (new .flags ⟨2⟩, crowded.store)).2.1

/-- There is no frame for the first page. -/
def refused : Cursor × Store := (next (begun, crowded.store)).2

/-- The second transaction has committed. -/
def freed : Store := (StoreAction.complete ⟨2⟩ true refused.2).2

def firstTaken : Cursor × Store := (next (refused.1, freed)).2

def secondTaken : Cursor × Store := (next (firstTaken.1, firstTaken.2)).2

theorem sees_crowded : crowded.store.Sees ⟨2⟩ .flags (crowded.ledger.view ⟨2⟩) := by
  have pages : crowded.store.wholePages .flags = 3 := by cbv
  have grows : Store.flags.Grows crowded.store := Recorded.grows_run Store.fresh_flags crowdedCalls
  have catalog := grows.catalog
  have bounded : crowded.store.Bounded := by
    refine Store.bounded_of_flags catalog ?_
    rw [pages]
    decide
  have registered : crowded.store.catalog.file TableFile.flags.id = .ok .flags := by
    rw [catalog]
    exact Store.registered_flags
  unfold crowded at bounded registered ⊢
  exact sees_run Store.fresh_flags crowdedCalls bounded registered ⟨2⟩

/-- **A page that is skipped.**  The call that is refused is repeated with success, but the
row of the first page is not answered any more. -/
theorem listing_but_lost_crowded :
    let rows : List Row := [⟨some ⟨⟨TableFile.flags.id, 1⟩, 0⟩, [.bool false]⟩,
      ⟨some ⟨⟨TableFile.flags.id, 2⟩, 0⟩, [.bool false]⟩]
    (next (begun, crowded.store)).1 = .error (.fault .poolFull) ∧
    Drawn .flags ⟨2⟩ (crowded.ledger.view ⟨2⟩) secondTaken.1 rows [0] ∧
    (next (secondTaken.1, secondTaken.2)).1 = .ok none ∧
    ((crowded.ledger.view ⟨2⟩).without TableFile.flags.id [0]).Listing TableFile.flags.id rows ∧
    crowded.ledger.view ⟨2⟩ ⟨⟨TableFile.flags.id, 0⟩, 0⟩ = some [.bool true] := by
  intro rows
  have full : (next (begun, crowded.store)).1 = .error (.fault .poolFull) := by cbv
  have passed : refused.1.nextPage = 1 := by cbv
  have second : (next (refused.1, freed)).1 =
      .ok (some ⟨some ⟨⟨TableFile.flags.id, 1⟩, 0⟩, [.bool false]⟩) := by cbv
  have third : (next (firstTaken.1, firstTaken.2)).1 =
      .ok (some ⟨some ⟨⟨TableFile.flags.id, 2⟩, 0⟩, [.bool false]⟩) := by cbv
  have ended : (next (secondTaken.1, secondTaken.2)).1 = .ok none := by cbv
  have opened : Drawn .flags ⟨2⟩ (crowded.ledger.view ⟨2⟩) begun [] [] := by
    unfold begun
    exact .opened (new .flags ⟨2⟩) crowded.store rfl rfl
  have stopped := opened.stopped sees_crowded full
  rw [← refused, passed] at stopped
  have sees_refused := opened.sees_next sees_crowded
  rw [← refused] at sees_refused
  have sees_freed := sees_refused.commit
  rw [← freed] at sees_freed
  have one := stopped.answered sees_freed second
  have sees_first := stopped.sees_next sees_freed
  rw [← firstTaken] at one sees_first
  have two := one.answered sees_first third
  have sees_second := one.sees_next sees_first
  rw [← secondTaken] at two sees_second
  have listed := two.listing_but_lost sees_second ended
  exact ⟨full, two, ended, listed.1, by cbv⟩

end Cursor

end RowStore
