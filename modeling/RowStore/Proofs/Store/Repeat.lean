/-
# RowStore.Proofs.Store.Repeat -- a scan that is made again

A scan locks the pages that it visits and nothing else, and it counts the pages anew
each time.  Rows that appear between two scans of a transaction could be stored on the
pages that it has locked, which are pinned, or on new ones.  An insert by another
transaction grows a file only after it has locked all its pages, the first one
included; so a scan that has visited a page keeps the file as long as it is
(`Effect.wholePages_eq`), and the second scan answers what the first did
(`Reachable.repeatable_scan`).  Runs interleave whole calls, and an insert that has to wait
for a lock ends there: one that was taken up again later would append behind pages that it
has not locked, since it counts the pages at its beginning.

A scan of a file without pages locks nothing, and keeps nobody from storing rows there
(`phantom_row`).
-/
import RowStore.Proofs.Store.Pinned

namespace RowStore

set_option autoImplicit false

open Relation

/-- A call that changes no rows and does not end its transaction. -/
def Call.ReadsOnly : Call → Prop
  | .scan _ => True
  | .read _ _ => True
  | _ => False

namespace Store

/-- A step of a run in which the transaction only reads: a call is carried out, or the disk
breaks it off. -/
inductive Quiet (txn : TxnId) (s : Store) : Store → Prop where
  | carriedOut {owner : TxnId} {call : Call} (reads : owner = txn → call.ReadsOnly) :
      Quiet txn s (s.carryOut owner call)
  | brokenOff {owner : TxnId} {call : Call} {after : Store} (reads : owner = txn → call.ReadsOnly)
      (broken : Broken owner s call after) : Quiet txn s after

variable {txn other : TxnId} {s after : Store} {file : TableFile}

theorem reads_carryOut (ok : s.Orderly) {call : Call} (reads : call.ReadsOnly) :
    s.Reads txn (s.carryOut txn call) := by
  cases call with
  | scan table => exact (StoreAction.scan_spec ok.pool rfl).1
  | read page mode => exact (StoreAction.readPage_spec ok.pool rfl).1
  | insert => cases reads
  | delete => cases reads
  | complete => cases reads

theorem Broken.reads {call : Call} (broken : Broken txn s call after) (reads : call.ReadsOnly) :
    s.Reads txn after := by
  cases broken with
  | reached reached => exact reached
  | appended => cases reads
  | written => cases reads

/-- A step is a read by the transaction, or made of effects of another. -/
theorem Quiet.reads_or_effects (ok : s.Orderly) (quiet : Quiet txn s after) :
    s.Reads txn after ∨ ∃ other, other ≠ txn ∧ s.Effects other after := by
  cases quiet with
  | @carriedOut owner call reads =>
      by_cases own : owner = txn
      · subst own
        exact Or.inl (reads_carryOut ok (reads rfl))
      · exact Or.inr ⟨owner, own, effects_carryOut ok owner call⟩
  | @brokenOff owner call _ reads broken =>
      by_cases own : owner = txn
      · subst own
        exact Or.inl (broken.reads (reads rfl))
      · exact Or.inr ⟨owner, own, broken.effects⟩

/-! ## Files that do not grow -/

theorem Effect.grows (effect : Effect txn s after) : s.Grows after := by
  cases effect with
  | move move => exact move.grows
  | edit there held schema size sound replaces => exact replaces.grows
  | flush flush => exact flush.grows
  | drop => exact ⟨rfl, fun _ => Nat.le_refl _⟩
  | release => exact ⟨rfl, fun _ => Nat.le_refl _⟩

theorem effects_grows (effects : s.Effects txn after) : s.Grows after := by
  induction effects with
  | refl => exact .refl s
  | tail _ effect ih => exact ih.trans effect.grows

theorem mirrored_of_quiet (mirrored : s.Mirrored) (between : ReflTransGen (Quiet txn) s after) :
    after.Mirrored ∧ s.Grows after := by
  induction between with
  | refl => exact ⟨mirrored, .refl s⟩
  | tail _ quiet ih =>
      rcases quiet.reads_or_effects ih.1.toOrderly with reads | ⟨other, -, effects⟩
      · exact ⟨ih.1.effects (Walks.effects reads.walk), ih.2.trans (Walks.grows reads.walk)⟩
      · exact ⟨ih.1.effects effects, ih.2.trans (effects_grows effects)⟩

/-- **No phantoms.**  A file of which a transaction has locked the first page is not made
longer by others. -/
theorem Effect.wholePages_eq (mirrored : s.Mirrored) (effect : Effect other s after)
    (apart : other ≠ txn) {table : TableId} (registered : s.catalog.file table = .ok file)
    (some : s.pageCount file ≠ 0) (holds : s.Holds txn ⟨file.id, 0⟩) :
    after.wholePages file = s.wholePages file := by
  cases effect with
  | move move =>
      cases move with
      | request => rfl
      | turn => rfl
      | @grow _ held listed owns =>
          by_cases own : file = held
          · -- It would have the first page to itself.
            subst own
            obtain ⟨mode, found⟩ := holds
            have alone := LockTable.heldMode_eq_none_of_exclusive (mirrored.locks ⟨file.id, 0⟩)
              (owns 0 (Nat.pos_of_ne_zero some)) (Ne.symm apart)
            rw [found] at alone
            cases alone
          · exact wholePages_grown_ne mirrored.tables listed registered own
  | edit there held schema size sound replaces =>
      obtain ⟨pool, rfl⟩ := replaces.store
      rfl
  | flush flush =>
      obtain ⟨frame, held, written⟩ := mirrored.written flush
      exact written.lengths table file registered
  | drop => rfl
  | release => rfl

/-! ## Pages that were scanned -/

/-- The pages are pinned with these rows on them. -/
inductive Fixed (s : Store) (txn : TxnId) (file : TableFile) : List Nat → List Row → Prop where
  | nil : Fixed s txn file [] []
  | cons {number : Nat} {rest : List Nat} {front back : List Row}
      (pinned : s.Pinned txn ⟨file.id, number⟩ fun page => page.rows = .ok front)
      (later : Fixed s txn file rest back) : Fixed s txn file (number :: rest) (front ++ back)

theorem markFree_rows (front : List Row) : MarkFree fun page => page.rows = .ok front :=
  fun _ _ rows => rows

theorem Fixed.map {pages : List Nat} {rows : List Row} (fixed : s.Fixed txn file pages rows)
    (keep : ∀ id front, (s.Pinned txn id fun page => page.rows = .ok front) →
      after.Pinned txn id fun page => page.rows = .ok front) : after.Fixed txn file pages rows := by
  induction fixed with
  | nil => exact .nil
  | cons pinned _ ih => exact .cons (keep _ _ pinned) ih

theorem Fixed.reads (tables : s.catalog.Proper) {pages : List Nat} {rows : List Row}
    (fixed : s.Fixed txn file pages rows) (reads : s.Reads txn after) :
    after.Fixed txn file pages rows :=
  fixed.map fun _ _ pinned => pinned.walks tables reads.walk

theorem fixed_of_scanned (mirrored : s.Mirrored) {pages : List Nat} {rows : List Row}
    (scanned : StoreAction.Scanned file txn pages s rows after) :
    after.Fixed txn file pages rows := by
  induction scanned with
  | done => exact .nil
  | @page number _ _ mid _ frame front _ reads there holds rows later ih =>
      have still := mirrored.effects (Walks.effects reads.walk)
      have pinned : mid.Pinned txn ⟨file.id, number⟩ fun page => page.rows = .ok front :=
        still.pinned there holds rows
      exact .cons (pinned.walks still.tables later.reads.walk) (ih still)

theorem Fixed.rows_eq {pages : List Nat} {rows again : List Row} (tables : s.catalog.Proper)
    (fixed : s.Fixed txn file pages rows)
    (scanned : StoreAction.Scanned file txn pages s again after) : again = rows := by
  induction scanned generalizing rows with
  | done =>
      cases fixed
      rfl
  | page reads there holds seen later ih =>
      have still := fixed.reads tables reads
      have proper := (Walks.grows reads.walk).catalog ▸ tables
      cases still with
      | cons pinned others =>
          have same := pinned.resident _ there
          rw [seen] at same
          cases same
          rw [ih proper others]

/-! ## Two scans -/

/-- A transaction has scanned a table that has pages, and has these rows to expect. -/
structure Watched (s : Store) (txn : TxnId) (table : TableId) (file : TableFile) (count : Nat)
    (rows : List Row) : Prop where
  mirrored : s.Mirrored
  registered : s.catalog.file table = .ok file
  counted : s.pageCount file = count + 1
  fixed : s.Fixed txn file (List.range (count + 1)) rows

variable {table : TableId} {count : Nat} {rows : List Row}

theorem Watched.holds (watched : s.Watched txn table file count rows) :
    s.Holds txn ⟨file.id, 0⟩ := by
  have fixed := watched.fixed
  rw [List.range_succ_eq_map] at fixed
  cases fixed with
  | cons pinned _ => exact pinned.holds

theorem Watched.effects (watched : s.Watched txn table file count rows) (apart : other ≠ txn)
    (effects : s.Effects other after) : after.Watched txn table file count rows := by
  induction effects with
  | refl => exact watched
  | tail _ effect ih =>
      have holds := ih.holds
      obtain ⟨mirrored, registered, counted, fixed⟩ := ih
      refine ⟨mirrored.effect effect, effect.grows.catalog ▸ registered, ?_, ?_⟩
      · rw [pageCount_congr (effect.wholePages_eq mirrored apart registered (by omega) holds)]
        exact counted
      · exact fixed.map fun _ front pinned =>
          pinned.effect mirrored (markFree_rows front) apart effect

theorem Watched.quiet (watched : s.Watched txn table file count rows) (quiet : Quiet txn s after) :
    after.Watched txn table file count rows := by
  rcases quiet.reads_or_effects watched.mirrored.toOrderly with reads | ⟨other, apart, effects⟩
  · obtain ⟨mirrored, registered, counted, fixed⟩ := watched
    refine ⟨mirrored.effects (Walks.effects reads.walk), ?_, ?_, fixed.reads mirrored.tables reads⟩
    · rw [(Walks.grows reads.walk).catalog, registered]
    · rw [(views_congr reads.disk file).2.1, counted]
  · exact watched.effects apart effects

theorem Watched.run (watched : s.Watched txn table file count rows)
    (between : ReflTransGen (Quiet txn) s after) : after.Watched txn table file count rows := by
  induction between with
  | refl => exact watched
  | tail _ quiet ih => exact ih.quiet quiet

/-- **A scan that is made again** by a transaction that has only read in between answers the
rows that the first answered, whatever other transactions have done, if the file had
pages at the first scan or has none at the second. -/
theorem Reachable.repeatable_scan {first second : List Row} (reachable : s.Reachable)
    (registered : s.catalog.file table = .ok file)
    (scan : (StoreAction.scan txn table s).1 = .ok first)
    (between : ReflTransGen (Quiet txn) (s.carryOut txn (.scan table)) after)
    (again : (StoreAction.scan txn table after).1 = .ok second)
    (pages : s.pageCount file ≠ 0 ∨ after.pageCount file = 0) : second = first := by
  have mirrored := reachable.mirrored
  rcases ran : StoreAction.scan txn table s with ⟨answer, mid⟩
  rw [ran] at scan
  subst scan
  have started : s.carryOut txn (.scan table) = mid := congrArg Prod.snd ran
  rw [started] at between
  obtain ⟨reads, found⟩ := StoreAction.scan_spec mirrored.pool ran
  obtain ⟨held, listed, scanned⟩ := found first rfl
  rw [registered] at listed
  cases listed
  have still := mirrored.effects (Walks.effects reads.walk)
  obtain ⟨last, grows⟩ := mirrored_of_quiet still between
  rcases reran : StoreAction.scan txn table after with ⟨answer, final⟩
  rw [reran] at again
  subst again
  obtain ⟨-, refound⟩ := StoreAction.scan_spec last.pool reran
  obtain ⟨held, listed, rescanned⟩ := refound second rfl
  rw [grows.catalog, (Walks.grows reads.walk).catalog, registered] at listed
  cases listed
  cases count : s.pageCount file with
  | zero =>
      have none := pages.resolve_left (not_not_intro count)
      rw [count] at scanned
      rw [none] at rescanned
      cases scanned
      cases rescanned
      rfl
  | succ count' =>
      rw [count] at scanned
      have begun : mid.Watched txn table file count' first := by
        refine ⟨still, ?_, ?_, fixed_of_scanned mirrored scanned⟩
        · rw [(Walks.grows reads.walk).catalog, registered]
        · rw [(views_congr reads.disk file).2.1, count]
      have watched := begun.run between
      rw [watched.counted] at rescanned
      exact watched.fixed.rows_eq watched.mirrored.tables rescanned

/-- One transaction has scanned the table of flags, another waits to insert a second row. -/
def crowded : Store :=
  (flagged.carryOut ⟨2⟩ (.scan TableFile.flags.id)).carryOut ⟨3⟩
    (.insert TableFile.flags.id [.bool false])

theorem repeatable_scan_crowded : flagged.Reachable ∧
    (StoreAction.scan ⟨2⟩ TableFile.flags.id flagged).1 =
      .ok [⟨some ⟨⟨TableFile.flags.id, 0⟩, 0⟩, [.bool true]⟩] ∧
    ReflTransGen (Quiet ⟨2⟩) (flagged.carryOut ⟨2⟩ (.scan TableFile.flags.id)) crowded ∧
    (StoreAction.scan ⟨2⟩ TableFile.flags.id crowded).1 =
      .ok [⟨some ⟨⟨TableFile.flags.id, 0⟩, 0⟩, [.bool true]⟩] := by
  have evaluated : ((StoreAction.scan ⟨2⟩ TableFile.flags.id flagged).1,
      (StoreAction.scan ⟨2⟩ TableFile.flags.id crowded).1.toBool, flagged.pageCount .flags,
      flagged.catalog.file TableFile.flags.id) =
        (.ok [⟨some ⟨⟨TableFile.flags.id, 0⟩, 0⟩, [.bool true]⟩], true, 1, .ok .flags) := by cbv
  simp only [Prod.mk.injEq] at evaluated
  obtain ⟨scan, answers, count, registered⟩ := evaluated
  have between : ReflTransGen (Quiet ⟨2⟩)
      (flagged.carryOut ⟨2⟩ (.scan TableFile.flags.id)) crowded :=
    .single (.carriedOut fun same => absurd same (by decide))
  refine ⟨reachable_flagged, scan, between, ?_⟩
  obtain ⟨second, again⟩ := exists_ok_of_toBool answers
  have pages : flagged.pageCount .flags ≠ 0 ∨ crowded.pageCount .flags = 0 :=
    Or.inl (by rw [count]; decide)
  rw [again, reachable_flagged.repeatable_scan registered scan between again pages]

/-! ## A file without pages -/

/-- One transaction has scanned a new table, another has inserted a row and committed. -/
def overtaken : Store :=
  ((flags.carryOut ⟨1⟩ (.scan TableFile.flags.id)).carryOut ⟨2⟩
    (.insert TableFile.flags.id [.bool true])).carryOut ⟨2⟩ (.complete true)

/-- **A phantom.**  A transaction that has found a new table empty, and has not ended, finds
the row of another that committed in between. -/
theorem phantom_row : flags.Reachable ∧
    flags.catalog.file TableFile.flags.id = .ok .flags ∧
    (StoreAction.scan ⟨1⟩ TableFile.flags.id flags).1 = .ok [] ∧
    ReflTransGen (Quiet ⟨1⟩) (flags.carryOut ⟨1⟩ (.scan TableFile.flags.id)) overtaken ∧
    (StoreAction.scan ⟨1⟩ TableFile.flags.id overtaken).1 =
      .ok [⟨some ⟨⟨TableFile.flags.id, 0⟩, 0⟩, [.bool true]⟩] := by
  have evaluated : ((StoreAction.scan ⟨1⟩ TableFile.flags.id flags).1,
      (StoreAction.scan ⟨1⟩ TableFile.flags.id overtaken).1) =
        (.ok [], .ok [⟨some ⟨⟨TableFile.flags.id, 0⟩, 0⟩, [.bool true]⟩]) := by cbv
  simp only [Prod.mk.injEq] at evaluated
  have other : (⟨2⟩ : TxnId) ≠ ⟨1⟩ := by decide
  refine ⟨.prepared fresh_flags.prepared, registered_flags, evaluated.1, ?_, evaluated.2⟩
  exact (ReflTransGen.single (.carriedOut fun same => absurd same other)).tail
    (.carriedOut fun same => absurd same other)

end Store

end RowStore
