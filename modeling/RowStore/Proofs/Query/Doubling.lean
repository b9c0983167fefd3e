/-
# RowStore.Proofs.Query.Doubling -- inserting the rows of a table into the table itself

The scan that an insert takes its rows from goes on to pages that the insert has filled.  It
comes upon a copy exactly if the copy lies on a page that the scan has not fetched yet.  On a
table that is full it never ends: each copy goes to a new page, from which the next one is made,
until there is no frame left (`doubles_no_full_table`).

A table is `Spacious` if its first pages, however many, have room for two of each of their rows.
Then each copy finds a slot behind the scan (`Copying.insert`), and the statement ends with
every row there twice (`doubles_rows`).
-/
import RowStore.Proofs.Query.Insertion
import RowStore.Proofs.Store.AtHand
import RowStore.Proofs.Store.Uniform

namespace RowStore

set_option autoImplicit false

open RowStore.Action

/-- In a table, a lower id is not on a later page. -/
theorem RecordId.number_le {i j : RecordId} (le : i ≤ j) (same : i.page.table = j.page.table) :
    i.page.number ≤ j.page.number := by
  rcases le with ((table | ⟨-, before⟩) | ⟨here, -⟩) | rfl
  · rw [same] at table
    exact absurd table (UInt32.lt_irrefl _)
  · exact before.le
  · rw [here]
  · exact le_rfl

/-! ## Calls that succeed -/

namespace Cursor

variable {c : Cursor} {s : Store}

theorem advance_isOk (atHand : s.AtHand c.txn c.file) (known : c.knownPages ≤ s.pageCount c.file)
    (inside : c.nextPage ≤ s.pageCount c.file) {bound : Nat}
    (enough : s.pageCount c.file - c.nextPage < bound) :
    ∃ answer now after, Cursor.advance bound (c, s) = (.ok answer, now, after) ∧
      now.knownPages ≤ s.pageCount c.file ∧ now.nextPage ≤ s.pageCount c.file := by
  induction bound generalizing c s with
  | zero => exact absurd enough (Nat.not_lt_zero _)
  | succ bound ih =>
      have counted : c.reckoned s ≤ s.pageCount c.file := by
        unfold reckoned
        split
        · exact le_rfl
        · exact known
      rw [advance_succ]
      by_cases ended : c.reckoned s ≤ c.nextPage
      · rw [if_pos ended]
        exact ⟨none, _, s, rfl, counted, inside⟩
      · have before : c.nextPage < s.pageCount c.file := by omega
        obtain ⟨frame, mid, read, reads, found⟩ := atHand.readPage before .shared
        obtain ⟨-, -, -, sound⟩ := atHand.legible.shape found
        rw [if_neg ended, read]
        simp only
        obtain ⟨rows, listed⟩ : ∃ rows, frame.page.rows = .ok rows := ⟨_, sound.rows_eq⟩
        cases rows with
        | nil =>
            rw [listed]
            have count : mid.pageCount c.file = s.pageCount c.file :=
              (Store.views_congr reads.disk c.file).2.1
            have later := ih (c := c.passed (c.reckoned s)) (atHand.reads reads)
              (by rw [passed, count]; exact counted) (by rw [passed, count]; exact before)
              (by rw [passed, count]; simp only; omega)
            rw [passed, count] at later
            exact later
        | cons row rest =>
            rw [listed]
            exact ⟨some row, _, mid, rfl, counted, before⟩

/-- **A call for the next row** does not fail on a table that is at hand. -/
theorem next_isOk (atHand : s.AtHand c.txn c.file) (isOpen : c.isOpen = true)
    (known : c.knownPages ≤ s.pageCount c.file) (inside : c.nextPage ≤ s.pageCount c.file) :
    ∃ answer now after, next (c, s) = (.ok answer, now, after) ∧
      now.knownPages ≤ s.pageCount c.file ∧ now.nextPage ≤ s.pageCount c.file := by
  rw [next_apply, if_neg (by simp [isOpen])]
  cases c.ready with
  | nil => exact advance_isOk atHand known inside (by omega)
  | cons row rest => exact ⟨some row, _, s, rfl, known, inside⟩

end Cursor

/-! ## Room behind the scan -/

namespace Contents

variable {c d : Contents} {file : TableFile} {front : List Row} {copies : List (List Value)}
  {pages number : Nat}

/-- The rows on the pages before this one. -/
def rowsBefore (rows : List Row) (number : Nat) : List Row :=
  rows.filter fun row => row.id?.any fun id => decide (id.page.number < number)

theorem Listing.rowsBefore {table : TableId} {rows : List Row} (listing : c.Listing table rows)
    (lists : c.Lists table (List.range number) front) : rowsBefore rows number = front := by
  let first : Contents := fun id => if id.page.number < number then c id else none
  have here : first.Listing table front := by
    refine (lists.congr fun other member slot => ?_).listing fun id values seen _ => ?_
    · exact if_pos (List.mem_range.1 member)
    · by_contra past
      have none : first id = none := if_neg past
      rw [none] at seen
      cases seen
  refine Listing.unique ⟨listing.ordered.filter _, fun row => ?_⟩ here
  rw [Contents.rowsBefore, List.mem_filter, listing.exact]
  constructor
  · rintro ⟨⟨id, values, rfl, own, seen⟩, before⟩
    have before : id.page.number < number := by simpa using before
    exact ⟨id, values, rfl, own, by rw [← seen]; exact if_pos before⟩
  · rintro ⟨id, values, rfl, own, seen⟩
    by_cases before : id.page.number < number
    · have same : first id = c id := if_pos before
      exact ⟨⟨id, values, rfl, own, same ▸ seen⟩, by simpa using before⟩
    · have none : first id = none := if_neg before
      rw [none] at seen
      cases seen

/-- Slots that are more than the rows listed on their pages and those stored since cannot all
be used. -/
theorem Fills.free (fills : c.Fills file copies d)
    (lists : c.Lists file.id (List.range pages) front)
    (few : front.length + copies.length < file.slots * pages) :
    ∃ number < pages, ∃ slot < file.slots, d ⟨⟨file.id, number⟩, slot⟩ = none := by
  by_contra full
  obtain ⟨places, stored, -, -, found⟩ := fills.places
  let place : Nat × Nat → RecordId := fun at_slot => ⟨⟨file.id, at_slot.1⟩, at_slot.2⟩
  let ids : Finset RecordId :=
    (front.filterMap Row.id?).toFinset ∪ (places.map Prod.fst).toFinset
  have all : ∀ at_slot ∈ Finset.range pages ×ˢ Finset.range file.slots, place at_slot ∈ ids := by
    rintro ⟨number, slot⟩ inside
    rw [Finset.mem_product, Finset.mem_range, Finset.mem_range] at inside
    have taken : d (place (number, slot)) ≠ none := fun none =>
      full ⟨number, inside.1, slot, inside.2, none⟩
    obtain ⟨values, used⟩ := Option.ne_none_iff_exists'.1 taken
    refine Finset.mem_union.2 ?_
    rcases (found _ values).1 used with before | since
    · refine Or.inl (List.mem_toFinset.2 (List.mem_filterMap.2 ⟨⟨some _, values⟩, ?_, rfl⟩))
      exact (lists.mem_iff _).2 ⟨number, List.mem_range.2 inside.1, slot, values, rfl, before⟩
    · exact Or.inr (List.mem_toFinset.2 (List.mem_map.2 ⟨_, since, rfl⟩))
  have injective : Function.Injective place := by
    rintro ⟨number, slot⟩ ⟨other, last⟩ same
    cases same
    rfl
  have count := Finset.card_le_card_of_injOn place all injective.injOn
  rw [Finset.card_product, Finset.card_range, Finset.card_range] at count
  have most : ids.card ≤ front.length + copies.length := by
    refine (Finset.card_union_le _ _).trans (Nat.add_le_add ?_ ?_)
    · exact (List.toFinset_card_le _).trans (List.length_filterMap_le _ _)
    · refine (List.toFinset_card_le _).trans ?_
      rw [List.length_map, ← stored, List.length_map]
  rw [Nat.mul_comm] at few
  omega

end Contents

/-! ## Copies of rows -/

/-- The first pages of the table, however many, have slots for two of each of their rows. -/
def Spacious (file : TableFile) (pages : Nat) (rows : List Row) : Prop :=
  ∀ number ≤ pages, 2 * (Contents.rowsBefore rows number).length ≤ file.slots * number

/-- Since the store was `b`, a transaction has scanned a table, has got these rows, and has
inserted those of them that are copied.  All copies lie behind the scan. -/
structure Trails (b : Store) (txn : TxnId) (file : TableFile) (answered copied : List Row)
    (c : Cursor) (s : Store) : Prop where
  legible : s.Legible file
  onFile : c.file = file
  ofTxn : c.txn = txn
  passed : (b.seen txn).Lists file.id (List.range c.nextPage) (answered ++ c.ready)
  copies : (b.seen txn).Fills file (copied.map Row.values) (s.seen txn)
  ahead : ∀ number slot, c.nextPage ≤ number →
    s.seen txn ⟨⟨file.id, number⟩, slot⟩ = b.seen txn ⟨⟨file.id, number⟩, slot⟩

namespace Trails

variable {b s after : Store} {txn : TxnId} {file : TableFile} {answered copied rows : List Row}
  {row : Row} {c now : Cursor}

theorem start (legible : s.Legible file) :
    Trails s txn file [] [] (Source.opened file txn s) s :=
  ⟨legible, rfl, rfl, .none, .done _, fun _ _ _ => rfl⟩

/-- The next row is one that was there at the beginning. -/
theorem next (trails : Trails b txn file answered copied c s) {answer : Option Row}
    (run : Cursor.next (c, s) = (.ok answer, now, after)) :
    Trails b txn file (answered ++ answer.toList) copied now after := by
  obtain ⟨legible, rfl, rfl, passed, copies, ahead⟩ := trails
  obtain ⟨reads, onFile, ofTxn, number, fresh, moved, lists, same⟩ :=
    Cursor.passes_next legible run
  have seen : after.seen c.txn = s.seen c.txn := Store.seen_reads legible.mirrored.tables reads
  have lists : (b.seen c.txn).Lists c.file.id (List.range' c.nextPage number) fresh :=
    lists.congr fun other member slot => (ahead other slot (List.mem_range'_1.1 member).1).symm
  refine ⟨legible.reads reads, onFile, ofTxn, ?_, by rw [seen]; exact copies,
    fun other slot later => ?_⟩
  · have all := passed.append lists
    rw [List.append_assoc, same, ← List.append_assoc, List.range_eq_range'] at all
    rw [moved, List.range_eq_range', ← List.range'_append_1, Nat.zero_add]
    exact all
  · rw [seen]
    exact ahead other slot (by omega)

/-- A copy that is stored behind the scan changes nothing ahead of it. -/
theorem insert (trails : Trails b txn file (copied ++ [row]) copied c s) {id : RecordId}
    (run : StoreAction.insertRow txn file.id row.values s = (.ok id, after))
    (behind : id.page.number < c.nextPage) :
    Trails b txn file (copied ++ [row]) (copied ++ [row]) c after := by
  obtain ⟨legible, least, shows⟩ := trails.legible.insertRow run
  refine ⟨legible, trails.onFile, trails.ofTxn, trails.passed, ?_, fun other slot later => ?_⟩
  · rw [shows.own, List.map_append]
    exact trails.copies.snoc least
  · rw [shows.own, ← trails.ahead other slot later]
    refine Edit.apply_elsewhere (fun same => ?_) _ _
    rw [← show (⟨file.id, other⟩ : PageId) = id.page from same] at behind
    exact absurd behind (Nat.not_lt.2 later)

/-- At the end all rows have been answered. -/
theorem answered_all (trails : Trails b txn file answered copied c s) (dry : c.ready = [])
    (legible : b.Legible file) (past : b.pageCount file ≤ c.nextPage)
    (listing : (b.seen txn).Listing file.id rows) : answered = rows := by
  have lists := trails.passed
  rw [dry, List.append_nil] at lists
  refine (lists.listing fun id values seen own => ?_).unique listing
  exact Nat.lt_of_lt_of_le (legible.seen_inside seen own) past

end Trails

/-- The same on a table that is at hand, whose file stays as it is. -/
structure Copying (b : Store) (txn : TxnId) (file : TableFile) (answered copied : List Row)
    (c : Cursor) (s : Store) : Prop extends Trails b txn file answered copied c s where
  atHand : s.AtHand txn file
  disk : s.disk = b.disk
  isOpen : c.isOpen = true
  known : c.knownPages ≤ b.pageCount file
  inside : c.nextPage ≤ b.pageCount file
  others : ∀ other, other ≠ txn → s.seen other = b.seen other

namespace Copying

variable {b s after : Store} {txn : TxnId} {file : TableFile} {answered copied rows : List Row}
  {row : Row} {c now : Cursor}

theorem pageCount (copying : Copying b txn file answered copied c s) :
    s.pageCount file = b.pageCount file := (Store.views_congr copying.disk file).2.1

/-- **The next row** can be had. -/
theorem next (copying : Copying b txn file answered copied c s) :
    ∃ answer now after, Cursor.next (c, s) = (.ok answer, now, after) ∧
      Copying b txn file (answered ++ answer.toList) copied now after ∧
        (answer = none → now.Ended after) := by
  obtain rfl := copying.onFile
  obtain rfl := copying.ofTxn
  have atHand := copying.atHand
  have count := copying.pageCount
  obtain ⟨answer, now, after, run, known, inside⟩ := Cursor.next_isOk atHand copying.isOpen
    (count ▸ copying.known) (count ▸ copying.inside)
  obtain ⟨still, ended⟩ := Cursor.next_leaves run
  have reads := (Cursor.passes_next atHand.legible run).reads
  refine ⟨answer, now, after, run, ⟨copying.toTrails.next run, atHand.reads reads,
    reads.disk.trans copying.disk, still.trans copying.isOpen, count ▸ known, count ▸ inside,
    fun other foreign => ?_⟩, fun none => ended (by rw [none])⟩
  rw [Store.seen_reads atHand.legible.mirrored.tables reads, copying.others other foreign]

/-- **A copy** of the row that was answered last finds a slot behind the scan. -/
theorem insert (copying : Copying b txn file (copied ++ [row]) copied c s)
    (listing : (b.seen txn).Listing file.id rows) (room : Spacious file (b.pageCount file) rows) :
    ∃ id after, StoreAction.insertRow txn file.id row.values s = (.ok id, after) ∧
      Copying b txn file (copied ++ [row]) (copied ++ [row]) c after := by
  have passed := copying.passed
  have atHand := copying.atHand
  have spare := room c.nextPage copying.inside
  rw [listing.rowsBefore passed] at spare
  obtain ⟨number, behind, slot, within, free⟩ := copying.copies.free passed (by
    simp only [List.length_append, List.length_map, List.length_cons, List.length_nil] at spare ⊢
    omega)
  have place : s.HasSlot file ⟨⟨file.id, number⟩, slot⟩ :=
    ⟨rfl, by rw [copying.pageCount]; exact Nat.lt_of_lt_of_le behind copying.inside, within⟩
  -- The row is still there, so it can be written.
  obtain ⟨home, -, home_slot, values, rfl, stored⟩ := (passed.mem_iff row).1 (by simp)
  obtain ⟨places, -, -, -, found⟩ := copying.copies.places
  obtain ⟨bytes, fits⟩ := atHand.encode_of_seen rfl ((found _ values).2 (Or.inl stored))
  obtain ⟨id, after, run, still, same, before, least, shows⟩ := atHand.insertRow fits place free
  have lower : id.page.number ≤ number := RecordId.number_le before least.table
  refine ⟨id, after, run, ⟨copying.toTrails.insert run (Nat.lt_of_le_of_lt lower behind), still,
    same.trans copying.disk, copying.isOpen, copying.known, copying.inside,
    fun other foreign => ?_⟩⟩
  rw [shows.others other foreign, copying.others other foreign]

/-- **All rows are copied**: each turn of the insert succeeds, and the scan ends. -/
theorem sweep (schema : Schema) (bound : Nat) (listing : (b.seen txn).Listing file.id rows)
    (room : Spacious file (b.pageCount file) rows) {left : Nat}
    (copying : Copying b txn file copied copied c s)
    (enough : file.slots * b.pageCount file < copied.length + left) :
    ∃ more now after, Source.Sweep ((Source.scan txn file.id).next bound)
        (fun row => do
          let _ ← StoreAction.insertRow txn file.id row.values) ⟨some c, schema⟩ s more
          ⟨some now, schema⟩ after ∧
      Copying b txn file (copied ++ more) (copied ++ more) now after ∧ now.Ended after := by
  induction left generalizing copied c s with
  | zero =>
      have spare := room _ copying.inside
      rw [listing.rowsBefore copying.passed, List.length_append] at spare
      have most := Nat.mul_le_mul_left file.slots copying.inside
      omega
  | succ left ih =>
      obtain ⟨answer, d, mid, run, further, ended⟩ := copying.next
      have taken : (Source.scan txn file.id).next bound (⟨some c, schema⟩, s) =
          (.ok answer, ⟨some d, schema⟩, mid) := by
        rw [Source.scan_next, Source.onCursor_apply]
        simp only [run]
      cases answer with
      | none =>
          rw [Option.toList_none, List.append_nil] at further
          exact ⟨[], d, mid, .done taken, by rwa [List.append_nil], ended rfl⟩
      | some row =>
          obtain ⟨id, changed, inserted, copied_row⟩ := further.insert listing room
          have edited : (do
              let _ ← StoreAction.insertRow txn file.id row.values : StoreAction Unit) mid =
                (.ok (), changed) := by
            rw [bind_apply, inserted]
            rfl
          obtain ⟨more, now, after, rest, last, at_end⟩ := ih copied_row (by
            simp only [List.length_append, List.length_cons, List.length_nil]
            omega)
          refine ⟨row :: more, now, after, .row taken edited rest, ?_, at_end⟩
          simpa using last

end Copying

namespace Running

variable {s : Store} {txn : TxnId} {file : TableFile} {rows : List Row}

/-- Insert the rows of a table into the table itself. -/
def double (table : TableId) : Plan := .insert table (.scan table)

/-- The insert starts with its scan at the front of the table. -/
theorem double_start (listed : s.catalog.file file.id = .ok file) :
    (do
      (Source.scan txn file.id).start
      let expected := (← Step.onStore (StoreAction.tableFile file.id)).schema.types
      let given := ((Source.scan txn file.id).schema (← Step.own)).types
      if given ≠ expected then Step.fail (.badShape (.insertTypes given file.id expected)) :
        Step Source.ScanState Unit) (⟨none, .empty⟩, s) =
      (.ok (), ⟨some (Source.opened file txn s), file.schema⟩, s) := by
  rw [bind_apply, Source.scan_start]
  simp only [Option.isSome_none, Bool.false_eq_true, if_false, listed]
  simp only [bind_apply, Step.onStore_apply, StoreAction.tableFile, StoreAction.query_apply, listed,
    Except.mapError, Step.own_apply]
  rw [if_neg (by simp [Source.scan])]
  rfl

/-- A table has fewer slots than any loop of a plan may take rows. -/
theorem slots_lt_rowBound (reachable : s.Reachable) (listed : s.catalog.file file.id = .ok file) :
    file.slots * s.pageCount file < s.rowBound := by
  let files : TableId → Option TableFile := fun table => (s.catalog.file table).toOption
  have known : ∀ table held, s.catalog.file table = .ok held ↔ files table = some held := by
    intro table held
    show _ ↔ (s.catalog.file table).toOption = some held
    cases s.catalog.file table <;> simp [Except.toOption]
  have proper := (reachable.orderly.tables _ file listed).2
  have slots : file.slots * s.pageCount file ≤ slotLimit * s.pageCount file :=
    Nat.mul_le_mul_right _ proper.addressed
  exact Nat.lt_of_le_of_lt slots
    ((reachable.uniform known).slots_lt_rowBound ((known _ _).1 listed))

end Running

end RowStore
