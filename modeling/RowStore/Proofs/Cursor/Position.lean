/-
# RowStore.Proofs.Cursor.Position -- where a cursor stands

What a table holds for a transaction is said by a ledger that the store agrees with
(`Store.Sees`).  A cursor of the transaction goes through the pages of the table from the
first.  Its `Position` says what has become of the pages that it has passed: their rows
were answered or are ready to be answered, but for pages that are lost.

The loop of a cursor is opened once, in `advance_succ`.  `Position.next` and
`Position.hasNext` say what a call makes of a position: a call that stops has passed a page
whose rows are neither answered nor ready.
-/
import RowStore.Cursor
import RowStore.Proofs.Store.Listing

namespace RowStore

set_option autoImplicit false

open RowStore.Action

/-! ## What a transaction sees -/

namespace Store

variable {s after : Store} {txn : TxnId} {file : TableFile} {contents : Contents}

/-- The table of this file has these contents, as far as the transaction is concerned. -/
structure Sees (s : Store) (txn : TxnId) (file : TableFile) (contents : Contents) : Prop where
  orderly : s.Orderly
  bounded : s.Bounded
  registered : s.catalog.file file.id = .ok file
  agrees : ∃ ℓ : Ledger, ℓ.Agrees s ∧ ∀ id, id.page.table = file.id → ℓ.view txn id = contents id

theorem Sees.reads (sees : s.Sees txn file contents) (reads : s.Reads txn after) :
    after.Sees txn file contents := by
  obtain ⟨ℓ, agrees, same⟩ := sees.agrees
  have bounded := reads.bounded sees.bounded
  refine ⟨sees.orderly.walks reads.walk, bounded, ?_, ℓ, ?_, same⟩
  · rw [(Walks.grows reads.walk).catalog, sees.registered]
  · exact agrees.walks sees.orderly reads.walk bounded

/-- A commit of the transaction itself changes nothing for it. -/
theorem Sees.commit (sees : s.Sees txn file contents) :
    (StoreAction.complete txn true s).2.Sees txn file contents := by
  obtain ⟨ℓ, agrees, same⟩ := sees.agrees
  obtain ⟨mid, ended, flushes, unmarked⟩ := StoreAction.complete_commit txn sees.orderly
  have catalog := (grows_flushes flushes).catalog
  have counted := agrees.bounded_flushes sees.orderly flushes sees.bounded
  have agreed := agrees.complete sees.orderly txn true
  rw [ended] at agreed ⊢
  refine ⟨(sees.orderly.flushes flushes).releaseAll unmarked, counted.congr rfl rfl,
    catalog ▸ sees.registered, _, agreed, fun id here => ?_⟩
  rw [← same id here]
  simp [Ledger.view, Ledger.finish, Edit.applyAll]

/-- The rows of the table lie on the pages of its file. -/
theorem Sees.inside (sees : s.Sees txn file contents) {id : RecordId} {values : List Value}
    (seen : contents id = some values) (here : id.page.table = file.id) :
    id.page.number < s.pageCount file := by
  obtain ⟨ℓ, agrees, same⟩ := sees.agrees
  rw [← same id here] at seen
  obtain ⟨held, listed, within⟩ := agrees.view_inside sees.orderly seen
  rw [here, sees.registered] at listed
  cases listed
  exact within

/-- A page that the transaction has read has the rows of the table on it. -/
theorem Sees.pageListing (sees : s.Sees txn file contents) {number : Nat} {mode : LockMode}
    {frame : Frame} {rows : List Row}
    (run : StoreAction.readPage txn ⟨file.id, number⟩ mode s = (.ok frame, after))
    (read : frame.page.rows = .ok rows) : contents.PageListing ⟨file.id, number⟩ rows := by
  obtain ⟨reads, found⟩ := StoreAction.readPage_spec sees.orderly.pool run
  obtain ⟨there, held, holds, -⟩ := found frame rfl
  have now := sees.reads reads
  obtain ⟨ℓ, agrees, same⟩ := now.agrees
  obtain ⟨-, -, -, -, sound⟩ := now.orderly.belongs _ frame there
  have named := (now.orderly.pool.resident?_id there).2
  have stored : ∀ slot, frame.page.at? slot = contents ⟨frame.page.id, slot⟩ := by
    intro slot
    rw [named, ← same _ rfl]
    exact agrees.seen now.orderly there ⟨held, holds⟩ slot
  exact named ▸ Contents.pageListing_rows sound stored read

end Store

/-- One more page, after the others. -/
theorem Contents.Lists.snoc {c : Contents} {table : TableId} {pages : List Nat} {number : Nat}
    {rows last : List Row} (lists : c.Lists table pages rows)
    (listing : c.PageListing ⟨table, number⟩ last) :
    c.Lists table (pages ++ [number]) (rows ++ last) := by
  induction lists with
  | none => simpa using Contents.Lists.page listing .none
  | page first _ ih =>
      rw [List.append_assoc]
      exact .page first ih

namespace Cursor

/-! ## One turn of the loop -/

theorem filePages_apply (c : Cursor) (s : Store) :
    filePages (c, s) = (.ok (s.pageCount c.file), c, s) := rfl

/-- The pages that a cursor reckons with when it looks for the next. -/
def reckoned (c : Cursor) (s : Store) : Nat :=
  if c.knownPages ≤ c.nextPage then s.pageCount c.file else c.knownPages

/-- The cursor past its next page. -/
def passed (c : Cursor) (known : Nat) : Cursor :=
  { c with knownPages := known, nextPage := c.nextPage + 1 }

/-- **One turn.**  The number of pages is looked up if the known ones are passed; then the
next page is passed, and only then fetched. -/
theorem advance_succ (bound : Nat) (c : Cursor) (s : Store) :
    advance (bound + 1) (c, s) =
      if c.reckoned s ≤ c.nextPage then
        (.ok none, { c with knownPages := c.reckoned s }, s)
      else
        match StoreAction.readPage c.txn ⟨c.file.id, c.nextPage⟩ .shared s with
        | (.error stop, after) => (.error stop, c.passed (c.reckoned s), after)
        | (.ok frame, after) =>
            match frame.page.rows with
            | .error fault => (.error (.fault fault), c.passed (c.reckoned s), after)
            | .ok [] => advance bound (c.passed (c.reckoned s), after)
            | .ok (row :: rest) =>
                (.ok (some row), { c.passed (c.reckoned s) with ready := rest }, after) := by
  rw [advance, bind_apply, Step.own_apply, reckoned]
  by_cases seen : c.knownPages ≤ c.nextPage
  · simp only [seen, if_true, bind_apply, filePages_apply, Step.modifyOwn_apply, Step.own_apply]
    by_cases ended : s.pageCount c.file ≤ c.nextPage
    · simp only [ended, if_true, pure_apply]
    · simp only [ended, if_false, bind_apply, Step.modifyOwn_apply, Step.onStore_apply]
      rcases StoreAction.readPage c.txn ⟨c.file.id, c.nextPage⟩ .shared s with ⟨_ | frame, after⟩
      · rfl
      · dsimp only
        rcases frame.page.rows with _ | _ | _ <;> rfl
  · simp only [seen, if_false, bind_apply, Step.modifyOwn_apply, Step.own_apply, Step.onStore_apply]
    rcases StoreAction.readPage c.txn ⟨c.file.id, c.nextPage⟩ .shared s with ⟨_ | frame, after⟩
    · rfl
    · dsimp only
      rcases frame.page.rows with _ | _ | _ <;> rfl

/-! ## Positions -/

/-- The pages before a page, without the lost ones. -/
def keptPages (lost : List Nat) (number : Nat) : List Nat :=
  (List.range number).filter fun n => decide (n ∉ lost)

/-- The cursor is open and has answered these rows.  With the rows that are ready they are
the rows of all pages that it has passed, in order, but for the lost pages. -/
structure Position (file : TableFile) (txn : TxnId) (contents : Contents) (c : Cursor)
    (rows : List Row) (lost : List Nat) : Prop where
  isOpen : c.isOpen = true
  onFile : c.file = file
  ofTxn : c.txn = txn
  lists : contents.Lists file.id (keptPages lost c.nextPage) (rows ++ c.ready)
  before : ∀ number ∈ lost, number < c.nextPage
  once : lost.Nodup

variable {file : TableFile} {txn : TxnId} {contents : Contents} {c now : Cursor}
  {rows : List Row} {lost : List Nat} {s after : Store}

/-- Where every pass through the table starts. -/
theorem position_openFirst (own : c.file = file) (mine : c.txn = txn) (s : Store) :
    Position file txn contents (openFirst (c, s)).2.1 [] [] :=
  ⟨rfl, own, mine, .none, nofun, .nil⟩

/-- A row that is ready is answered. -/
theorem position_ready_iff {row : Row} {rest : List Row} :
    Position file txn contents { c with ready := row :: rest } rows lost ↔
      Position file txn contents { c with ready := rest } (rows ++ [row]) lost := by
  have moved : (rows ++ [row]) ++ rest = rows ++ row :: rest := by simp
  constructor
  · rintro ⟨isOpen, own, mine, lists, before, once⟩
    exact ⟨isOpen, own, mine, moved ▸ lists, before, once⟩
  · rintro ⟨isOpen, own, mine, lists, before, once⟩
    exact ⟨isOpen, own, mine, moved ▸ lists, before, once⟩

/-- The rows of the next page are ready. -/
theorem Position.fetched (pos : Position file txn contents c rows lost) (none : c.ready = [])
    {front : List Row} (listing : contents.PageListing ⟨file.id, c.nextPage⟩ front) (known : Nat) :
    Position file txn contents { c.passed known with ready := front } rows lost := by
  obtain ⟨isOpen, own, mine, lists, before, once⟩ := pos
  have last : keptPages lost (c.nextPage + 1) = keptPages lost c.nextPage ++ [c.nextPage] := by
    have kept : c.nextPage ∉ lost := fun member => absurd (before _ member) (Nat.lt_irrefl _)
    simp [keptPages, List.range_succ, kept]
  refine ⟨isOpen, own, mine, ?_, fun n member => Nat.lt_succ_of_lt (before n member), once⟩
  rw [none, List.append_nil] at lists
  show contents.Lists file.id (keptPages lost (c.nextPage + 1)) (rows ++ front)
  rw [last]
  exact lists.snoc listing

/-- The next page is passed, and its rows are lost. -/
theorem Position.missed (pos : Position file txn contents c rows lost) (known : Nat) :
    Position file txn contents (c.passed known) rows (lost ++ [c.nextPage]) := by
  obtain ⟨isOpen, own, mine, lists, before, once⟩ := pos
  have fresh : c.nextPage ∉ lost := fun member => absurd (before _ member) (Nat.lt_irrefl _)
  have same : keptPages (lost ++ [c.nextPage]) (c.nextPage + 1) = keptPages lost c.nextPage := by
    rw [keptPages, List.range_succ, List.filter_append]
    simp only [List.mem_append, List.mem_singleton, or_true, not_true, decide_false,
      Bool.false_eq_true, not_false_eq_true, List.filter_cons_of_neg, List.filter_nil,
      List.append_nil]
    refine List.filter_congr fun n member => ?_
    have apart : n ≠ c.nextPage := Nat.ne_of_lt (List.mem_range.1 member)
    simp [apart]
  refine ⟨isOpen, own, mine, ?_, fun n member => ?_, ?_⟩
  · show contents.Lists file.id (keptPages (lost ++ [c.nextPage]) (c.nextPage + 1))
      (rows ++ c.ready)
    rw [same]
    exact lists
  · rcases List.mem_append.1 member with old | new
    · exact Nat.lt_succ_of_lt (before n old)
    · rw [List.mem_singleton.1 new]
      exact Nat.lt_succ_self _
  · exact List.nodup_append.2 ⟨once, List.nodup_singleton _, fun a old b new same =>
      fresh (List.mem_singleton.1 new ▸ same ▸ old)⟩

/-! ## Calls -/

/-- What a call leaves that was to answer a row. -/
def Outcome (file : TableFile) (txn : TxnId) (contents : Contents) (rows : List Row)
    (lost : List Nat) (answer : Except Stop (Option Row)) (now : Cursor) (after : Store) : Prop :=
  match answer with
  | .ok (some row) => Position file txn contents now (rows ++ [row]) lost
  | .ok none =>
      Position file txn contents now rows lost ∧ now.ready = [] ∧ after.pageCount file ≤ now.nextPage
  | .error _ =>
      Position file txn contents now rows (lost ++ [now.nextPage - 1]) ∧ 0 < now.nextPage

theorem Position.advance (pos : Position file txn contents c rows lost)
    (sees : s.Sees txn file contents) (none : c.ready = []) {bound : Nat}
    (enough : max c.knownPages (s.pageCount file) - c.nextPage < bound)
    {answer : Except Stop (Option Row)}
    (run : Cursor.advance bound (c, s) = (answer, now, after)) :
    after.Sees txn file contents ∧ Outcome file txn contents rows lost answer now after := by
  induction bound generalizing c s with
  | zero => exact absurd enough (Nat.not_lt_zero _)
  | succ bound ih =>
      obtain ⟨isOpen, rfl, rfl, lists, before, once⟩ := pos
      have pos : Position c.file c.txn contents c rows lost :=
        ⟨isOpen, rfl, rfl, lists, before, once⟩
      rw [advance_succ] at run
      split at run
      · rename_i ended
        cases run
        refine ⟨sees, ⟨isOpen, rfl, rfl, lists, before, once⟩, none, ?_⟩
        show after.pageCount c.file ≤ c.nextPage
        unfold reckoned at ended
        split at ended
        · exact ended
        · rename_i fewer
          exact absurd ended fewer
      · rename_i more
        rcases read : StoreAction.readPage c.txn ⟨c.file.id, c.nextPage⟩ .shared s with
          ⟨stop | frame, mid⟩ <;> rw [read] at run
        · cases run
          have reads := (StoreAction.readPage_spec sees.orderly.pool read).1
          exact ⟨sees.reads reads, pos.missed _, Nat.succ_pos _⟩
        · have reads := (StoreAction.readPage_spec sees.orderly.pool read).1
          have still := sees.reads reads
          simp only at run
          split at run
          · cases run
            exact ⟨still, pos.missed _, Nat.succ_pos _⟩
          · rename_i empty
            have listing := sees.pageListing read empty
            have same : { c.passed (c.reckoned s) with ready := [] } = c.passed (c.reckoned s) := by
              rw [← none]
              rfl
            have past := pos.fetched none listing (c.reckoned s)
            rw [same] at past
            refine ih past still none ?_ run
            -- One page fewer is left, whether or not the pages were counted again.
            have count := (Store.views_congr reads.disk c.file).2.1
            have left : c.reckoned s ≤ max c.knownPages (s.pageCount c.file) := by
              unfold reckoned
              split
              · exact Nat.le_max_right _ _
              · exact Nat.le_max_left _ _
            show max (c.reckoned s) (mid.pageCount c.file) - (c.nextPage + 1) < bound
            omega
          · rename_i row rest listed
            cases run
            have listing := sees.pageListing read listed
            exact ⟨still, position_ready_iff.1 (pos.fetched none listing _)⟩

/-- **A call for the next row** answers it, or answers that there is none when all pages of
the file are passed, or stops.  When it stops, the page that it has passed last is lost. -/
theorem Position.next (pos : Position file txn contents c rows lost)
    (sees : s.Sees txn file contents) {answer : Except Stop (Option Row)}
    (run : Cursor.next (c, s) = (answer, now, after)) :
    after.Sees txn file contents ∧ Outcome file txn contents rows lost answer now after := by
  unfold Cursor.next at run
  rw [bind_apply, Step.own_apply] at run
  simp only [pos.isOpen, Bool.not_true, Bool.false_eq_true, if_false] at run
  cases ready : c.ready with
  | nil =>
      simp only [ready, bind_apply, filePages_apply] at run
      refine pos.advance sees ready ?_ run
      rw [pos.onFile]
      omega
  | cons row rest =>
      simp only [ready, bind_apply, Step.modifyOwn_apply, pure_apply] at run
      cases run
      refine ⟨sees, position_ready_iff.1 ?_⟩
      rw [← ready]
      exact pos

/-- **A look whether there is a next row** leaves the position as it is, or it stops and has
lost a page as well. -/
theorem Position.hasNext (pos : Position file txn contents c rows lost)
    (sees : s.Sees txn file contents) {answer : Except Stop Bool}
    (run : Cursor.hasNext (c, s) = (answer, now, after)) :
    after.Sees txn file contents ∧
      match answer with
      | .ok _ => Position file txn contents now rows lost
      | .error _ =>
          Position file txn contents now rows (lost ++ [now.nextPage - 1]) ∧ 0 < now.nextPage := by
  unfold Cursor.hasNext at run
  rw [bind_apply, Step.own_apply] at run
  simp only [pos.isOpen, Bool.not_true, Bool.false_eq_true, if_false] at run
  rcases tried : Cursor.next (c, s) with ⟨reply, ⟨mid, store⟩⟩
  obtain ⟨still, left⟩ := pos.next sees tried
  rw [bind_apply, tried] at run
  rcases reply with stop | _ | row
  · cases run
    exact ⟨still, left⟩
  · cases run
    exact ⟨still, left.1⟩
  · simp only [bind_apply, Step.modifyOwn_apply, pure_apply] at run
    cases run
    exact ⟨still, position_ready_iff.2 left⟩

end Cursor

end RowStore
