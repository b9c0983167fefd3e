/-
# RowStore.Proofs.Query.Deletion -- deleting the rows that satisfy a predicate

A delete takes the rows of a filtered scan one by one, and each is deleted before the scan goes
on.  The scan has passed the page of a row that it has answered, and fetches pages behind it
only, so it finds there what was there at the beginning (`delete_sweep`).  In a legible table the
rows that satisfy the predicate are deleted, all of them and no others (`deletes_holding`).

A refusal to replace a table leaves pages resident that are not in its file any more.  The delete
itself may evict such a page, and a row that did not satisfy the predicate is not seen any more
(`row_deleted_besides`).
-/
import RowStore.Proofs.Cursor.OwnChanges
import RowStore.Proofs.Query.Changes

namespace RowStore

set_option autoImplicit false

open RowStore.Action

theorem Contents.Lists.congr {c d : Contents} {table : TableId} {pages : List Nat}
    {rows : List Row} (lists : c.Lists table pages rows)
    (same : ∀ number ∈ pages, ∀ slot, d ⟨⟨table, number⟩, slot⟩ = c ⟨⟨table, number⟩, slot⟩) :
    d.Lists table pages rows := by
  induction lists with
  | none => exact .none
  | page first _ ih =>
      refine .page ⟨first.ordered, fun row => ?_⟩
        (ih fun number member => same number (List.mem_cons_of_mem _ member))
      rw [first.exact]
      simp only [same _ List.mem_cons_self]

/-- Some of the listed rows are taken out. -/
theorem Contents.Listing.takenOut {c d : Contents} {table : TableId} {rows : List Row}
    (listing : c.Listing table rows) (gone : Row → Bool)
    (left : ∀ id, d id = if some id ∈ (rows.filter gone).map Row.id? then none else c id) :
    d.Listing table (rows.filter fun row => !gone row) ∧
      ∀ id : RecordId, id.page.table ≠ table → d id = c id := by
  have gone_iff : ∀ id values, ⟨some id, values⟩ ∈ rows →
      (some id ∈ (rows.filter gone).map Row.id? ↔ gone ⟨some id, values⟩ = true) := by
    intro id values member
    rw [List.mem_map]
    constructor
    · rintro ⟨row, listed, named⟩
      obtain ⟨there, out⟩ := List.mem_filter.1 listed
      obtain ⟨other, stored, rfl, -, seen⟩ := (listing.exact row).1 there
      obtain ⟨_, _, same, -, here⟩ := (listing.exact _).1 member
      cases named
      cases same
      rw [seen] at here
      cases here
      exact out
    · exact fun out => ⟨_, List.mem_filter.2 ⟨member, out⟩, rfl⟩
  refine ⟨⟨listing.ordered.filter _, fun row => ?_⟩, fun id apart => ?_⟩
  · rw [List.mem_filter]
    constructor
    · rintro ⟨member, stays⟩
      obtain ⟨id, values, rfl, own, seen⟩ := (listing.exact row).1 member
      refine ⟨id, values, rfl, own, ?_⟩
      rw [left, if_neg (by simpa [gone_iff id values member] using stays), seen]
    · rintro ⟨id, values, rfl, own, seen⟩
      rw [left] at seen
      split at seen
      · cases seen
      · rename_i stays
        have member := (listing.exact ⟨some id, values⟩).2 ⟨id, values, rfl, own, seen⟩
        exact ⟨member, by simpa [gone_iff id values member] using stays⟩
  · rw [left]
    refine if_neg fun listed => ?_
    obtain ⟨row, member, named⟩ := List.mem_map.1 listed
    obtain ⟨_, _, rfl, own, -⟩ := (listing.exact row).1 (List.mem_filter.1 member).1
    cases named
    exact apart own

namespace Store

/-- These rows are gone for the transaction, and nothing else has changed for anyone. -/
structure Loses (s after : Store) (txn : TxnId) (rows : List Row) : Prop where
  own : ∀ id, after.seen txn id = if some id ∈ rows.map Row.id? then none else s.seen txn id
  others : ∀ other, other ≠ txn → after.seen other = s.seen other
  disk : after.disk = s.disk

variable {s mid after : Store} {txn : TxnId} {row : Row} {rows : List Row} {id : RecordId}

theorem Loses.none (same : after.seen = s.seen) (disk : after.disk = s.disk) :
    s.Loses after txn [] := by
  refine ⟨fun id => ?_, fun other _ => ?_, disk⟩
  · rw [same, List.map_nil, if_neg List.not_mem_nil]
  · rw [same]

/-- One row is deleted, and then others. -/
theorem Loses.cons (named : row.id? = some id) (same : mid.seen = s.seen)
    (shows : mid.EditShows after txn (.delete id)) (disk : after.disk = s.disk) {last : Store}
    (rest : after.Loses last txn rows) : s.Loses last txn (row :: rows) := by
  refine ⟨fun other => ?_, fun other apart => ?_, rest.disk.trans disk⟩
  · rw [rest.own, shows.own, same, List.map_cons, named]
    by_cases here : other = id
    · simp [here, Edit.apply, Edit.id, Edit.entry]
    · simp [here, Edit.apply, Edit.id]
  · rw [rest.others other apart, shows.others other apart, same]

end Store

namespace Source

open Store

variable {s after : Store} {c : Cursor} {predicate : Predicate}

/-- The search for a row that satisfies the predicate passes over rows that do not. -/
theorem passes_firstHolding {turns : Nat} {st now : ScanState} {answer : Option Row}
    (there : st.cursor? = some c) (legible : s.Legible c.file)
    (run : firstHolding (onCursor Cursor.next) predicate turns (st, s) =
      (.ok answer, now, after)) :
    ∃ d skipped, now.cursor? = some d ∧ c.Passes s (skipped ++ answer.toList) d after ∧
      (∀ row ∈ skipped, predicate.holds row = false) ∧
      (∀ row, answer = some row → predicate.holds row = true) ∧
      (answer = none → d.Ended after) := by
  induction turns generalizing c st s with
  | zero => cases run
  | succ turns ih =>
      rw [firstHolding_succ, onCursor_apply, there] at run
      simp only at run
      rcases tried : Cursor.next (c, s) with ⟨_ | _ | row, d, mid⟩ <;> rw [tried] at run
      · cases run
      all_goals have passes := Cursor.passes_next legible tried
      · cases run
        exact ⟨d, [], rfl, passes, nofun, nofun, fun _ => (Cursor.next_leaves tried).2 rfl⟩
      · simp only at run
        split at run
        · rename_i holds
          cases run
          refine ⟨d, [], rfl, passes, nofun, fun other same => ?_, nofun⟩
          cases same
          exact holds
        · rename_i fails
          have still : mid.Legible d.file := passes.onFile ▸ legible.reads passes.reads
          obtain ⟨last, skipped, at_last, more, none_holds, holds, ended⟩ :=
            ih (c := d) rfl still run
          refine ⟨last, row :: skipped, at_last, ?_, ?_, holds, ended⟩
          · have all := passes.trans legible.mirrored.tables more
            exact all
          · intro other member
            rcases List.mem_cons.1 member with rfl | later
            · simpa using fails
            · exact none_holds other later

/-- **A sweep of deletes** over a filtered scan takes the rows that satisfy the predicate, of
those that are ready and those on the pages to come as they are at the beginning, and deletes
them. -/
theorem delete_sweep {table : TableId} {bound : Nat} {st now : Started ScanState}
    {rows : List Row} {txn : TxnId}
    (sweep : Sweep ((filter (scan txn table) predicate).next bound)
      (fun row => StoreAction.deleteRow txn row) st s rows now after)
    (ready : st.ready = true) (there : st.child.cursor? = some c) (mine : c.txn = txn)
    (legible : s.Legible c.file) (behind : Cursor.Behind c.file.id c.nextPage c.ready) :
    ∃ count fresh, (s.seen txn).Lists c.file.id (List.range' c.nextPage count) fresh ∧
      s.pageCount c.file ≤ c.nextPage + count ∧
      rows = (c.ready ++ fresh).filter predicate.holds ∧ after.Legible c.file ∧
        s.Loses after txn rows := by
  induction sweep generalizing c with
  | @done st now s after last =>
      subst mine
      rw [filter_next, if_pos ready] at last
      rcases searched : firstHolding ((scan c.txn table).next bound) predicate bound (st.child, s)
        with ⟨reply, child, store⟩
      rw [searched] at last
      cases last
      obtain ⟨d, skipped, -, passes, none_holds, -, ended⟩ :=
        passes_firstHolding there legible searched
      obtain ⟨reads, onFile, -, count, fresh, moved, lists, same⟩ := passes
      obtain ⟨dry, known, past⟩ := ended rfl
      have seen : after.seen = s.seen := funext fun _ => seen_reads legible.mirrored.tables reads
      refine ⟨count, fresh, lists, ?_, ?_, legible.reads reads, .none seen reads.disk⟩
      · rw [← (views_congr reads.disk c.file).2.1, ← onFile, ← known, ← moved]
        exact past
      · rw [same, dry]
        simpa using none_holds
  | @row st mid now s between changed after row rows taken edited _ ih =>
      subst mine
      rw [filter_next, if_pos ready] at taken
      rcases searched : firstHolding ((scan c.txn table).next bound) predicate bound (st.child, s)
        with ⟨reply, child, store⟩
      rw [searched] at taken
      cases taken
      obtain ⟨d, skipped, at_child, passes, none_holds, holds, -⟩ :=
        passes_firstHolding there legible searched
      have nothing_before : Cursor.Behind c.file.id c.nextPage ([] ++ c.ready) := behind
      have further := passes.behind nothing_before
      obtain ⟨reads, onFile, ofTxn, count, fresh, moved, lists, same⟩ := passes
      have seen : between.seen = s.seen :=
        funext fun _ => seen_reads legible.mirrored.tables reads
      have still := legible.reads reads
      -- The row is on a page that the scan has passed.
      obtain ⟨id, named, own, before⟩ := further row (by simp)
      obtain ⟨legible', disk, -, shows⟩ := still.deleteRow named own edited
      have ready_behind : Cursor.Behind d.file.id d.nextPage d.ready := by
        rw [onFile]
        exact fun other member => further other (List.mem_append_right _ member)
      obtain ⟨more, later, listed, past, rfl, last, loses⟩ :=
        ih ready at_child ofTxn (onFile ▸ legible') ready_behind
      rw [onFile] at listed past
      have total : changed.disk = s.disk := disk.trans reads.disk
      have apart : ∀ number ∈ List.range' d.nextPage more, ∀ slot,
          s.seen c.txn ⟨⟨c.file.id, number⟩, slot⟩ =
            changed.seen c.txn ⟨⟨c.file.id, number⟩, slot⟩ := by
        intro number member slot
        have later := (List.mem_range'_1.1 member).1
        rw [shows.own, seen]
        refine (Edit.apply_elsewhere (fun same => ?_) _ _).symm
        rw [← show (⟨c.file.id, number⟩ : PageId) = id.page from same] at before
        exact absurd before (Nat.not_lt.2 later)
      refine ⟨count + more, fresh ++ later, ?_, ?_, ?_, onFile ▸ last,
        .cons named seen shows total loses⟩
      · rw [← List.range'_append_1, ← moved]
        exact lists.append (listed.congr apart)
      · rw [(views_congr total c.file).2.1] at past
        omega
      · have none_skipped : skipped.filter predicate.holds = [] :=
          List.filter_eq_nil_iff.2 fun other member => by simp [none_holds other member]
        rw [← List.append_assoc, same]
        simp [none_skipped, holds row rfl]

/-- A filtered scan that starts is at the front of its table. -/
theorem filter_scan_start {file : TableFile} {txn : TxnId} {schema : Schema}
    {now : Started ScanState} (registered : s.catalog.file file.id = .ok file)
    (run : (filter (scan txn file.id) predicate).start (⟨⟨none, schema⟩, false⟩, s) =
      (.ok (), now, after)) :
    now = ⟨⟨some (opened file txn s), file.schema⟩, true⟩ ∧ after = s := by
  rw [filter_start, scan_start, registered] at run
  simp only [Bool.false_eq_true, if_false, Option.isSome_none] at run
  split at run <;> cases run
  exact ⟨rfl, rfl⟩

end Source

namespace Running

variable {s after : Store} {txn : TxnId} {file : TableFile} {predicate : Predicate}
  {answers : List Row} {ended : Running}

/-- **Deleting by a predicate.**  If a delete of the rows of a table that satisfy a predicate is
collected, it answers how many rows of the table did.  Its transaction then sees in the table
exactly the rows that did not, each under its id.  No other table has changed, nothing is written
to disk, and no other transaction sees any difference. -/
theorem deletes_holding (legible : s.Legible file)
    (run : collect (.new txn (.delete (.filter (.scan file.id) predicate)), s) =
      (.ok answers, ended, after)) :
    ∃ rows, (s.seen txn).Listing file.id rows ∧
      answers = [Source.countRow (rows.filter predicate.holds)] ∧
      (after.seen txn).Listing file.id (rows.filter fun row => !predicate.holds row) ∧
      (∀ listed last, StoreAction.scan txn file.id after = (.ok listed, last) →
        listed = rows.filter fun row => !predicate.holds row) ∧
      (∀ id, id.page.table ≠ file.id → after.seen txn id = s.seen txn id) ∧
      (∀ other, other ≠ txn → after.seen other = s.seen other) ∧ after.disk = s.disk := by
  obtain ⟨state, -, ran⟩ := perform_cases run
  obtain ⟨mid, between, now, taken, started, sweep, -, rfl, -⟩ :=
    (Source.collect_change_iff (Plan.one_lt_rowBound _ s)).1 ran
  obtain ⟨rfl, rfl⟩ := Source.filter_scan_start legible.registered started
  obtain ⟨count, rows, lists, past, rfl, still, loses⟩ :=
    Source.delete_sweep (c := Source.opened file txn between) sweep rfl rfl rfl legible nofun
  have all : (Source.opened file txn between).ready ++ rows = rows := List.nil_append rows
  rw [all] at loses ⊢
  have listing : (between.seen txn).Listing file.id rows := by
    have passed : between.pageCount file ≤ 0 + count := past
    have on_pages : (between.seen txn).Lists file.id (List.range count) rows := by
      rw [List.range_eq_range']
      exact lists
    refine on_pages.listing fun id values seen own => ?_
    have inside := legible.seen_inside seen own
    omega
  obtain ⟨left, elsewhere⟩ := listing.takenOut predicate.holds loses.own
  exact ⟨rows, listing, rfl, left, fun listed last scanned => (still.scan scanned).unique left,
    elsewhere, loses.others, loses.disk⟩

/-- A flag that is set and one that is not were committed, each on a page of its own. -/
def bothFlags : Store :=
  ((Store.flags.carryOut ⟨1⟩ (.insert TableFile.flags.id [.bool true])).carryOut ⟨1⟩
    (.insert TableFile.flags.id [.bool false])).carryOut ⟨1⟩ (.complete true)

theorem legible_bothFlags : bothFlags.Legible .flags := by
  have reachable : bothFlags.Reachable :=
    (((Store.Reachable.prepared Store.fresh_flags.prepared).called _ _).called _ _).called _ _
  have listed : bothFlags.catalog.file TableFile.flags.id = .ok .flags := by cbv
  have whole : bothFlags.wholePages .flags = 2 := by cbv
  exact (reachable.legible listed (by rw [whole]; decide)).1

/-- Delete the rows of the table that have this flag. -/
def deleteFlags (flag : Bool) : Plan :=
  .delete (.filter (.scan TableFile.flags.id) ⟨0, .eq, .bool flag⟩)

theorem deletes_holding_set : ∃ ended after,
    collect (.new ⟨2⟩ (deleteFlags true), bothFlags) =
        (.ok [Row.fresh [.int 1]], ended, after) ∧
      (after.seen ⟨2⟩).Listing TableFile.flags.id [Cursor.flagRow 1 false] := by
  have collected : (collect (.new ⟨2⟩ (deleteFlags true), bothFlags)).1 =
      .ok [Row.fresh [.int 1]] := by cbv
  have scanned : (StoreAction.scan ⟨2⟩ TableFile.flags.id bothFlags).1 =
      .ok [Cursor.flagRow 0 true, Cursor.flagRow 1 false] := by cbv
  obtain ⟨⟨ended, after⟩, run⟩ : ∃ w, collect (.new ⟨2⟩ (deleteFlags true), bothFlags) =
      (.ok [Row.fresh [.int 1]], w) := ⟨_, Prod.fst_eq_iff.1 collected⟩
  obtain ⟨rows, listing, -, left, -⟩ := deletes_holding legible_bothFlags run
  have all := (legible_bothFlags.scan (Prod.fst_eq_iff.1 scanned)).unique listing
  subst all
  exact ⟨ended, after, run, left⟩

/-- **A row that is deleted besides.**  A table was not replaced, and its rows went with its
file, but the page of one of them is still resident, and was used last.  A transaction scans the
table and sees a flag that is set and one that is not.  It deletes the flags that are not set,
and is told that it was one; then it does not see the other any more. -/
theorem row_deleted_besides : ∃ before ended after last,
    Running.outlived.Settled Store.onlyFlags ∧
      StoreAction.scan ⟨3⟩ TableFile.flags.id outlived =
        (.ok [Cursor.flagRow 1 true, Cursor.flagRow 2 false], before) ∧
      collect (.new ⟨3⟩ (deleteFlags false),
          (StoreAction.flushPage ⟨TableFile.flags.id, 1⟩ before).2) =
        (.ok [Row.fresh [.int 1]], ended, after) ∧
      StoreAction.scan ⟨3⟩ TableFile.flags.id after = (.ok [], last) := by
  have scanned : (StoreAction.scan ⟨3⟩ TableFile.flags.id outlived).1 =
      .ok [Cursor.flagRow 1 true, Cursor.flagRow 2 false] := by cbv
  have collected : (collect (.new ⟨3⟩ (deleteFlags false),
      (StoreAction.flushPage ⟨TableFile.flags.id, 1⟩
        (StoreAction.scan ⟨3⟩ TableFile.flags.id outlived).2).2)).1 =
          .ok [Row.fresh [.int 1]] := by cbv
  have again : (StoreAction.scan ⟨3⟩ TableFile.flags.id (collect (.new ⟨3⟩ (deleteFlags false),
      (StoreAction.flushPage ⟨TableFile.flags.id, 1⟩
        (StoreAction.scan ⟨3⟩ TableFile.flags.id outlived).2).2)).2.2).1 = .ok [] := by cbv
  obtain ⟨before, first⟩ : ∃ before, StoreAction.scan ⟨3⟩ TableFile.flags.id outlived =
      (.ok [Cursor.flagRow 1 true, Cursor.flagRow 2 false], before) :=
    ⟨_, Prod.fst_eq_iff.1 scanned⟩
  rw [first] at collected again
  obtain ⟨⟨ended, after⟩, second⟩ : ∃ w, collect (.new ⟨3⟩ (deleteFlags false),
      (StoreAction.flushPage ⟨TableFile.flags.id, 1⟩ before).2) =
        (.ok [Row.fresh [.int 1]], w) := ⟨_, Prod.fst_eq_iff.1 collected⟩
  rw [second] at again
  exact ⟨before, ended, after, _, settled_outlived, first, second, Prod.fst_eq_iff.1 again⟩

end Running

end RowStore
