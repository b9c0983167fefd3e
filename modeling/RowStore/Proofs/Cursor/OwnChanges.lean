/-
# RowStore.Proofs.Cursor.OwnChanges -- a cursor over a table that its transaction changes

A transaction goes through a table with a cursor and inserts and deletes rows of the same
table on the way.  What a call for the next row does is said in terms of what the transaction
sees (`Passes`): the cursor fetches the pages from its next one on, and answers their rows one
after the other.  A look whether there is a next row can be left out (`answers_of_peeks`).

No row is answered twice or out of order, and none is left out that was in the table when the
cursor was opened and stayed there (`Going`, `answers_own_changes`).  This needs a legible table.
A refusal to replace a table leaves pages resident that are not in its file any more, and a
change may evict one of them before the cursor comes to it (`row_lost_on_the_way`).
-/
import RowStore.Proofs.Query.Replay
import RowStore.Proofs.Store.Filling

namespace RowStore

set_option autoImplicit false

open RowStore.Action

/-! ## Pages that are read -/

/-- The pages of two lists, one list after the other. -/
theorem Contents.Lists.append {c : Contents} {table : TableId} {pages others : List Nat}
    {rows more : List Row} (first : c.Lists table pages rows) (second : c.Lists table others more) :
    c.Lists table (pages ++ others) (rows ++ more) := by
  induction first with
  | none => exact second
  | page listing _ ih =>
      rw [List.append_assoc]
      exact .page listing ih

/-- A page that the transaction has read has the rows that it sees there. -/
theorem Store.Legible.pageListing {s after : Store} {txn : TxnId} {file : TableFile} {number : Nat}
    (legible : s.Legible file) {mode : LockMode} {frame : Frame} {rows : List Row}
    (run : StoreAction.readPage txn ⟨file.id, number⟩ mode s = (.ok frame, after))
    (read : frame.page.rows = .ok rows) : (s.seen txn).PageListing ⟨file.id, number⟩ rows := by
  obtain ⟨-, found⟩ := legible.pageFor_of_readPage run
  obtain ⟨named, -, -, sound⟩ := legible.shape found
  rw [← named]
  refine Contents.pageListing_rows sound (fun slot => ?_) read
  rw [named, Store.seen_row legible.registered, found]

theorem Store.Legible.scanPages {s after : Store} {txn : TxnId} {file : TableFile}
    {pages : List Nat} {rows : List Row} (legible : s.Legible file)
    (run : StoreAction.scanPages file txn pages s = (.ok rows, after)) :
    (s.seen txn).Lists file.id pages rows := by
  induction pages generalizing s rows with
  | nil =>
      cases run
      exact .none
  | cons number rest ih =>
      rw [StoreAction.scanPages] at run
      rcases bind_cases run with ⟨_, -, same⟩ | ⟨frame, mid, read, decoding⟩
      · cases same
      have reads := (StoreAction.readPage_spec legible.mirrored.pool read).1
      rw [bind_apply, ofExcept_apply] at decoding
      cases listed : frame.page.rows with
      | error fault =>
          rw [listed] at decoding
          cases decoding
      | ok front =>
          rw [listed] at decoding
          rcases bind_cases decoding with ⟨_, -, same⟩ | ⟨back, last, others, ended⟩
          · cases same
          cases ended
          have more := ih (legible.reads reads) others
          rw [Store.seen_reads legible.mirrored.tables reads] at more
          exact .page (legible.pageListing read listed) more

/-- **A scan** answers what its transaction sees. -/
theorem Store.Legible.scan {s after : Store} {txn : TxnId} {file : TableFile} {rows : List Row}
    (legible : s.Legible file) (run : StoreAction.scan txn file.id s = (.ok rows, after)) :
    (s.seen txn).Listing file.id rows := by
  unfold StoreAction.scan at run
  simp only [StoreAction.tableFile, bind_apply, StoreAction.query_apply, legible.registered,
    Except.mapError, get_apply] at run
  exact (legible.scanPages run).listing fun id values seen own => legible.seen_inside seen own

namespace Cursor

variable {c mid now : Cursor} {s between after : Store} {taken more rows : List Row}

/-! ## Calls and looks -/

/-- The cursor has passed all pages that there are. -/
structure Ended (c : Cursor) (s : Store) : Prop where
  dry : c.ready = []
  known : c.knownPages = s.pageCount c.file
  passed : c.knownPages ≤ c.nextPage

theorem advance_leaves {bound : Nat} {answer : Except Stop (Option Row)} (dry : c.ready = [])
    (run : Cursor.advance bound (c, s) = (answer, now, after)) :
    now.isOpen = c.isOpen ∧ (answer = .ok none → now.Ended after) := by
  induction bound generalizing c s with
  | zero =>
      cases run
      exact ⟨rfl, nofun⟩
  | succ bound ih =>
      rw [advance_succ] at run
      split at run
      · rename_i ended
        cases run
        refine ⟨rfl, fun _ => ⟨dry, ?_, ended⟩⟩
        unfold reckoned at ended ⊢
        split at ended
        · rename_i passed
          exact if_pos passed
        · rename_i fewer
          exact absurd ended fewer
      · split at run
        · cases run
          exact ⟨rfl, nofun⟩
        · split at run
          · cases run
            exact ⟨rfl, nofun⟩
          · exact ih (c := c.passed (c.reckoned s)) dry run
          · cases run
            exact ⟨rfl, nofun⟩

/-- A call for the next row leaves an open cursor open, and answers none only at the end. -/
theorem next_leaves {answer : Except Stop (Option Row)}
    (run : Cursor.next (c, s) = (answer, now, after)) :
    now.isOpen = c.isOpen ∧ (answer = .ok none → now.Ended after) := by
  rw [next_apply] at run
  split at run
  · cases run
    exact ⟨rfl, nofun⟩
  · split at run
    · cases run
      exact ⟨rfl, nofun⟩
    · rename_i dry
      exact advance_leaves dry run

/-- At the end, and as long as the file gets no longer, calls change nothing. -/
theorem next_of_ended (isOpen : c.isOpen = true) (ended : c.Ended s) :
    next (c, s) = (.ok none, c, s) := by
  obtain ⟨dry, known, passed⟩ := ended
  have counted : c.reckoned s = c.knownPages := by
    rw [reckoned, if_pos passed, known]
  rw [next_apply, if_neg (by simp [isOpen]), dry]
  simp only
  rw [advance_succ, counted, if_pos passed]

theorem hasNext_apply (isOpen : c.isOpen = true) :
    hasNext (c, s) =
      match next (c, s) with
      | (.error stop, w) => (.error stop, w)
      | (.ok none, w) => (.ok false, w)
      | (.ok (some row), w) => (.ok true, { w.1 with ready := row :: w.1.ready }, w.2) := by
  unfold hasNext
  rw [bind_apply, Step.own_apply]
  simp only [isOpen, Bool.not_true, Bool.false_eq_true, if_false]
  rw [bind_apply]
  rcases next (c, s) with ⟨_ | _ | row, w⟩ <;> rfl

/-- **A look** leaves the next call as it is, and tells whether it answers a row. -/
theorem next_of_hasNext (isOpen : c.isOpen = true) {found : Bool}
    (run : hasNext (c, s) = (.ok found, now, after)) :
    now.isOpen = true ∧ next (now, after) = next (c, s) ∧
      ∃ answer, (next (c, s)).1 = .ok answer ∧ answer.isSome = found := by
  rw [hasNext_apply isOpen] at run
  rcases tried : next (c, s) with ⟨stop | _ | row, ⟨d, store⟩⟩ <;> rw [tried] at run <;> cases run
  all_goals obtain ⟨same, ended⟩ := next_leaves tried
  · have still : now.isOpen = true := same.trans isOpen
    exact ⟨still, next_of_ended still (ended rfl), none, rfl, rfl⟩
  · have still : d.isOpen = true := same.trans isOpen
    refine ⟨still, ?_, some row, rfl, rfl⟩
    rw [next_apply, if_neg (by simp [still])]

/-! ## What a call passes -/

/-- Calls for the next row have answered these rows.  With the rows that are ready now they are
the rows that were ready before and those of the pages fetched since. -/
structure Passes (c : Cursor) (s : Store) (taken : List Row) (now : Cursor) (after : Store) :
    Prop where
  reads : s.Reads c.txn after
  onFile : now.file = c.file
  ofTxn : now.txn = c.txn
  fetched : ∃ count fresh, now.nextPage = c.nextPage + count ∧
    (s.seen c.txn).Lists c.file.id (List.range' c.nextPage count) fresh ∧
      c.ready ++ fresh = taken ++ now.ready

theorem Passes.trans (tables : s.catalog.Proper) (first : c.Passes s taken mid between)
    (second : mid.Passes between more now after) : c.Passes s (taken ++ more) now after := by
  obtain ⟨reads, onFile, ofTxn, count, fresh, passed, lists, same⟩ := first
  obtain ⟨reads', onFile', ofTxn', count', fresh', passed', lists', same'⟩ := second
  rw [ofTxn] at reads' lists'
  rw [Store.seen_reads tables reads, onFile, passed] at lists'
  refine ⟨reads.trans reads', onFile'.trans onFile, ofTxn'.trans ofTxn, count + count',
    fresh ++ fresh', by omega, ?_, ?_⟩
  · rw [← List.range'_append_1]
    exact lists.append lists'
  · rw [← List.append_assoc, same, List.append_assoc, same', List.append_assoc]

/-- The rows lie on pages of the table before this one. -/
def Behind (table : TableId) (number : Nat) (rows : List Row) : Prop :=
  ∀ row ∈ rows, ∃ id, row.id? = some id ∧ id.page.table = table ∧ id.page.number < number

theorem Passes.behind (passes : c.Passes s taken now after)
    (behind : Behind c.file.id c.nextPage (rows ++ c.ready)) :
    Behind c.file.id now.nextPage ((rows ++ taken) ++ now.ready) := by
  obtain ⟨-, -, -, count, fresh, moved, lists, same⟩ := passes
  rw [List.append_assoc, ← same, ← List.append_assoc]
  intro row member
  rcases List.mem_append.1 member with old | new
  · obtain ⟨id, named, table, before⟩ := behind row old
    exact ⟨id, named, table, by omega⟩
  · obtain ⟨number, listed, slot, values, rfl, -⟩ := (lists.mem_iff row).1 new
    exact ⟨_, rfl, rfl, by rw [moved]; exact (List.mem_range'_1.1 listed).2⟩

theorem passes_advance (legible : s.Legible c.file) (dry : c.ready = []) {bound : Nat}
    {answer : Option Row} (run : Cursor.advance bound (c, s) = (.ok answer, now, after)) :
    c.Passes s answer.toList now after := by
  induction bound generalizing c s with
  | zero => cases run
  | succ bound ih =>
      rw [advance_succ] at run
      split at run
      · cases run
        exact ⟨.refl _ _, rfl, rfl, 0, [], rfl, .none, List.append_nil _⟩
      · rcases read : StoreAction.readPage c.txn ⟨c.file.id, c.nextPage⟩ .shared s with
          ⟨stop | frame, mid⟩ <;> rw [read] at run
        · cases run
        have reads := (StoreAction.readPage_spec legible.mirrored.pool read).1
        simp only at run
        split at run
        · cases run
        · rename_i empty
          have first : c.Passes s [] (c.passed (c.reckoned s)) mid :=
            ⟨reads, rfl, rfl, 1, [], rfl, .page (legible.pageListing read empty) .none,
              List.append_nil _⟩
          have later := ih (c := c.passed (c.reckoned s)) (legible.reads reads) dry run
          exact first.trans legible.mirrored.tables later
        · rename_i row rest listed
          cases run
          refine ⟨reads, rfl, rfl, 1, row :: rest, rfl, ?_, ?_⟩
          · have page := legible.pageListing read listed
            simpa using Contents.Lists.page page .none
          · rw [dry]
            rfl

/-- **A call for the next row** takes it from the rows that are ready, or from those of the
first page that has some. -/
theorem passes_next (legible : s.Legible c.file) {answer : Option Row}
    (run : Cursor.next (c, s) = (.ok answer, now, after)) : c.Passes s answer.toList now after := by
  rw [next_apply] at run
  split at run
  · cases run
  · split at run
    · rename_i row rest ready
      cases run
      refine ⟨.refl _ _, rfl, rfl, 0, [], rfl, .none, ?_⟩
      rw [List.append_nil, ready]
      rfl
    · rename_i dry
      exact passes_advance legible dry run

theorem passes_hasNext (isOpen : c.isOpen = true) (legible : s.Legible c.file) {found : Bool}
    (run : hasNext (c, s) = (.ok found, now, after)) : c.Passes s [] now after := by
  rw [hasNext_apply isOpen] at run
  rcases tried : next (c, s) with ⟨stop | _ | row, ⟨d, store⟩⟩ <;> rw [tried] at run <;> cases run
  all_goals have passes := passes_next legible tried
  · exact passes
  · obtain ⟨reads, onFile, ofTxn, count, fresh, passed, lists, same⟩ := passes
    exact ⟨reads, onFile, ofTxn, count, fresh, passed, lists, same⟩

/-! ## A transaction that changes the table on the way -/

/-- What a transaction asks for while it goes through a table. -/
inductive Request where
  | next
  | look
  | insert (values : List Value)
  | delete (row : Row)

/-- Carry out a request; the answer has the row that a call for the next one has answered. -/
def Request.answer : Request → Step Cursor (List Row)
  | .next => do return (← Cursor.next).toList
  | .look => do
      let _ ← hasNext
      return []
  | .insert values => do
      let c ← Step.own
      let _ ← Step.onStore (StoreAction.insertRow c.txn c.file.id values)
      return []
  | .delete row => do
      let c ← Step.own
      Step.onStore (StoreAction.deleteRow c.txn row)
      return []

/-- Carry out requests one after the other, and collect the rows. -/
def answers : List Request → Step Cursor (List Row)
  | [] => return []
  | request :: rest => do
      let first ← request.answer
      return first ++ (← answers rest)

/-- The request is about rows of this table. -/
def Request.On (table : TableId) : Request → Prop
  | .delete row => ∀ id, row.id? = some id → id.page.table = table
  | .next | .look | .insert _ => True

/-- The request asks for the next row, or whether there is one. -/
def Request.Asks : Request → Prop
  | .next | .look => True
  | .insert _ | .delete _ => False

/-- The second sequence has more looks than the first, each right before a request that asks for
the next row or whether there is one. -/
inductive Peeks : List Request → List Request → Prop where
  | done : Peeks [] []
  | same {request : Request} {requests others : List Request} (rest : Peeks requests others) :
      Peeks (request :: requests) (request :: others)
  | look {request : Request} {requests others : List Request} (asks : request.Asks)
      (rest : Peeks requests (request :: others)) : Peeks requests (.look :: request :: others)

/-- The row is to be deleted by one of the requests. -/
def Deletes (requests : List Request) (id : RecordId) : Prop :=
  ∃ row, .delete row ∈ requests ∧ row.id? = some id

/-! ### Looks that are left out -/

theorem answer_next (c : Cursor) (s : Store) : Request.next.answer (c, s) =
    match next (c, s) with
    | (.error stop, w) => (.error stop, w)
    | (.ok answer, w) => (.ok answer.toList, w) := by
  simp only [Request.answer, bind_apply]
  rcases next (c, s) with ⟨_ | _, w⟩ <;> rfl

theorem answer_look (c : Cursor) (s : Store) : Request.look.answer (c, s) =
    match hasNext (c, s) with
    | (.error stop, w) => (.error stop, w)
    | (.ok _, w) => (.ok [], w) := by
  simp only [Request.answer, bind_apply]
  rcases hasNext (c, s) with ⟨_ | _, w⟩ <;> rfl

theorem answer_insert (values : List Value) (c : Cursor) (s : Store) :
    (Request.insert values).answer (c, s) =
      match StoreAction.insertRow c.txn c.file.id values s with
      | (.error stop, after) => (.error stop, c, after)
      | (.ok _, after) => (.ok [], c, after) := by
  simp only [Request.answer, bind_apply, Step.own_apply, Step.onStore_apply]
  rcases StoreAction.insertRow c.txn c.file.id values s with ⟨_ | _, after⟩ <;> rfl

theorem answer_delete (row : Row) (c : Cursor) (s : Store) :
    (Request.delete row).answer (c, s) =
      match StoreAction.deleteRow c.txn row s with
      | (.error stop, after) => (.error stop, c, after)
      | (.ok (), after) => (.ok [], c, after) := by
  simp only [Request.answer, bind_apply, Step.own_apply, Step.onStore_apply]
  rcases StoreAction.deleteRow c.txn row s with ⟨_ | _, after⟩ <;> rfl

theorem answers_cons (request : Request) (rest : List Request) (w : Cursor × Store) :
    answers (request :: rest) w =
      match request.answer w with
      | (.error stop, w) => (.error stop, w)
      | (.ok first, w) =>
          match answers rest w with
          | (.error stop, w) => (.error stop, w)
          | (.ok later, w) => (.ok (first ++ later), w) := by
  rw [answers, bind_apply]
  rcases request.answer w with ⟨_ | first, w⟩
  · rfl
  · dsimp only
    rw [bind_apply]
    rcases answers rest w with ⟨_ | _, w⟩ <;> rfl

theorem isOpen_answer {request : Request} {first : List Row} (isOpen : c.isOpen = true)
    (run : request.answer (c, s) = (.ok first, now, after)) : now.isOpen = true := by
  cases request with
  | next =>
      rw [answer_next] at run
      rcases tried : next (c, s) with ⟨_ | _, ⟨d, store⟩⟩ <;> rw [tried] at run <;> cases run
      exact (next_leaves tried).1.trans isOpen
  | look =>
      rw [answer_look] at run
      rcases tried : hasNext (c, s) with ⟨_ | _, ⟨d, store⟩⟩ <;> rw [tried] at run <;> cases run
      exact (next_of_hasNext isOpen tried).1
  | insert values =>
      rw [answer_insert] at run
      split at run <;> cases run
      exact isOpen
  | delete row =>
      rw [answer_delete] at run
      split at run <;> cases run
      exact isOpen

/-- A request for the next row, or whether there is one, does not notice a look before it. -/
theorem answers_look {request : Request} (rest : List Request) (asks : request.Asks)
    (isOpen : c.isOpen = true) :
    answers (.look :: request :: rest) (c, s) = answers (request :: rest) (c, s) := by
  have again : match hasNext (c, s) with
      | (.error stop, w) => request.answer (c, s) = (.error stop, w)
      | (.ok _, w) => request.answer w = request.answer (c, s) := by
    rcases looked : hasNext (c, s) with ⟨stop | found, ⟨d, store⟩⟩
    · cases request with
      | next =>
          rw [hasNext_apply isOpen] at looked
          rw [answer_next]
          rcases tried : next (c, s) with ⟨_ | _ | _, w⟩ <;> rw [tried] at looked <;> cases looked
          rfl
      | look =>
          rw [answer_look, looked]
      | insert _ => exact asks.elim
      | delete _ => exact asks.elim
    · obtain ⟨still, same, -⟩ := next_of_hasNext isOpen looked
      cases request with
      | next =>
          simp only
          rw [answer_next, answer_next, same]
      | look =>
          simp only
          rw [answer_look, answer_look, hasNext_apply still, hasNext_apply isOpen, same]
      | insert _ => exact asks.elim
      | delete _ => exact asks.elim
  rw [answers_cons, answer_look, answers_cons]
  rcases looked : hasNext (c, s) with ⟨stop | found, w⟩ <;> rw [looked] at again <;>
    simp only at again ⊢
  · rw [again]
  · rw [answers_cons, again]
    rcases request.answer (c, s) with ⟨_ | first, w⟩
    · rfl
    · dsimp only
      rcases answers rest w with ⟨_ | _, w⟩ <;> rfl

/-- **Looks** change nothing of what is answered, and leave cursor and store as they would be
without them. -/
theorem answers_of_peeks {requests others : List Request} (peeks : Peeks requests others)
    (isOpen : c.isOpen = true) : answers others (c, s) = answers requests (c, s) := by
  induction peeks generalizing c s with
  | done => rfl
  | @same request requests others _ ih =>
      rw [answers_cons, answers_cons]
      rcases run : request.answer (c, s) with ⟨stop | first, ⟨d, store⟩⟩
      · rfl
      · dsimp only
        rw [ih (isOpen_answer isOpen run)]
  | look asks _ ih => rw [answers_look _ asks isOpen, ih isOpen]

/-! ### Rows on the way -/

/-- A cursor of the transaction on its way through the table, that has answered these rows.
The table had other contents when it set out, and some rows of these may be gone. -/
structure Going (file : TableFile) (txn : TxnId) (contents : Contents) (gone : RecordId → Prop)
    (rows : List Row) (c : Cursor) (s : Store) : Prop where
  legible : s.Legible file
  isOpen : c.isOpen = true
  onFile : c.file = file
  ofTxn : c.txn = txn
  ordered : (rows ++ c.ready).Pairwise fun a b =>
    ∃ i j, a.id? = some i ∧ b.id? = some j ∧ i < j
  behind : Behind file.id c.nextPage (rows ++ c.ready)
  kept : ∀ id values, contents id = some values → id.page.table = file.id → ¬ gone id →
    s.seen txn id = some values
  found : ∀ id values, contents id = some values → id.page.table = file.id → ¬ gone id →
    id.page.number < c.nextPage → ⟨some id, values⟩ ∈ rows ++ c.ready

variable {file : TableFile} {txn : TxnId} {contents : Contents} {gone : RecordId → Prop}

/-- Where the cursor sets out. -/
theorem going_openFirst (legible : s.Legible c.file) (gone : RecordId → Prop) :
    Going c.file c.txn (s.seen c.txn) gone [] (openFirst (c, s)).2.1 s :=
  ⟨legible, rfl, rfl, rfl, .nil, nofun, fun _ _ seen _ _ => seen,
    fun _ _ _ _ _ before => absurd before (Nat.not_lt_zero _)⟩

/-- The cursor goes on: rows that were ready are answered, and rows of pages behind those passed
become ready. -/
theorem Going.passes (going : Going file txn contents gone rows c s)
    (passes : c.Passes s taken now after) (isOpen : now.isOpen = true) :
    Going file txn contents gone (rows ++ taken) now after := by
  obtain ⟨legible, -, rfl, rfl, ordered, behind, kept, found⟩ := going
  have further := passes.behind behind
  obtain ⟨reads, onFile, ofTxn, count, fresh, moved, lists, same⟩ := passes
  have seen : after.seen c.txn = s.seen c.txn := Store.seen_reads legible.mirrored.tables reads
  have all : (rows ++ taken) ++ now.ready = (rows ++ c.ready) ++ fresh := by
    rw [List.append_assoc, ← same, List.append_assoc]
  have where_fresh : ∀ row, row ∈ fresh ↔ ∃ number ∈ List.range' c.nextPage count,
      ∃ slot values, row = ⟨some ⟨⟨c.file.id, number⟩, slot⟩, values⟩ ∧
        s.seen c.txn ⟨⟨c.file.id, number⟩, slot⟩ = some values := lists.mem_iff
  refine ⟨legible.reads reads, isOpen, onFile, ofTxn, ?_, further, ?_, ?_⟩
  · rw [all, List.pairwise_append]
    refine ⟨ordered, lists.ordered List.pairwise_lt_range', fun a first b second => ?_⟩
    obtain ⟨i, named, table, before⟩ := behind a first
    obtain ⟨number, member, slot, values, rfl, -⟩ := (where_fresh b).1 second
    have later := (List.mem_range'_1.1 member).1
    exact ⟨i, _, named, rfl, Or.inl (Or.inr ⟨table, Nat.lt_of_lt_of_le before later⟩)⟩
  · rw [seen]
    exact kept
  · rw [all]
    intro id values stored own stays before
    rcases Nat.lt_or_ge id.page.number c.nextPage with old | new
    · exact List.mem_append_left _ (found id values stored own stays old)
    · obtain ⟨⟨table, number⟩, slot⟩ := id
      obtain rfl : table = c.file.id := own
      refine List.mem_append_right _ ((where_fresh _).2 ⟨number, ?_, slot, values, rfl,
        kept _ values stored rfl stays⟩)
      exact List.mem_range'_1.2 ⟨new, by rw [← moved]; exact before⟩

/-- The transaction has changed a row of the table, but none that stays. -/
theorem Going.edit (going : Going file txn contents gone rows c s) (legible : after.Legible file)
    {e : Edit} (shows : s.EditShows after txn e)
    (spares : ∀ values, contents e.id = some values → e.id.page.table = file.id → gone e.id) :
    Going file txn contents gone rows c after := by
  obtain ⟨-, isOpen, onFile, ofTxn, ordered, behind, kept, found⟩ := going
  refine ⟨legible, isOpen, onFile, ofTxn, ordered, behind, fun id values stored own stays => ?_,
    found⟩
  have apart : id ≠ e.id := by
    rintro rfl
    exact stays (spares values stored own)
  rw [shows.own, Edit.apply, if_neg apart]
  exact kept id values stored own stays

/-- **One request** that does not fail. -/
theorem Going.answer (going : Going file txn contents gone rows c s) {request : Request}
    (on : request.On file.id) (deletes : ∀ row id, request = .delete row → row.id? = some id →
      gone id) (run : request.answer (c, s) = (.ok taken, now, after)) :
    Going file txn contents gone (rows ++ taken) now after := by
  have isOpen := isOpen_answer going.isOpen run
  have legible := going.legible
  obtain rfl := going.onFile
  obtain rfl := going.ofTxn
  cases request with
  | next =>
      rw [answer_next] at run
      rcases tried : next (c, s) with ⟨_ | _, ⟨d, store⟩⟩ <;> rw [tried] at run <;> cases run
      exact going.passes (passes_next legible tried) isOpen
  | look =>
      rw [answer_look] at run
      rcases tried : hasNext (c, s) with ⟨_ | _, ⟨d, store⟩⟩ <;> rw [tried] at run <;> cases run
      exact going.passes (passes_hasNext going.isOpen legible tried) isOpen
  | insert values =>
      rw [answer_insert] at run
      rcases inserted : StoreAction.insertRow c.txn c.file.id values s with ⟨_ | id, store⟩ <;>
        rw [inserted] at run <;> cases run
      obtain ⟨still, least, shows⟩ := legible.insertRow inserted
      rw [List.append_nil]
      refine going.edit still shows fun old stored own => ?_
      -- The slot was free, so a row that was there before is gone.
      by_contra stays
      have seen := going.kept id old stored own stays
      rw [least.free] at seen
      cases seen
  | delete row =>
      rw [answer_delete] at run
      rcases deleted : StoreAction.deleteRow c.txn row s with ⟨_ | ⟨⟩, store⟩ <;>
        rw [deleted] at run <;> cases run
      rw [List.append_nil]
      cases named : row.id? with
      | none =>
          unfold StoreAction.deleteRow at deleted
          rw [named] at deleted
          cases deleted
      | some id =>
          obtain ⟨still, -, -, shows⟩ := legible.deleteRow named (on id named) deleted
          exact going.edit still shows fun _ _ _ => deletes row id rfl named

/-- **A run of requests**, none of which fails. -/
theorem Going.answers (going : Going file txn contents gone rows c s) {requests : List Request}
    (on : ∀ request ∈ requests, request.On file.id)
    (deletes : ∀ id, Deletes requests id → gone id)
    (run : Cursor.answers requests (c, s) = (.ok more, now, after)) :
    Going file txn contents gone (rows ++ more) now after := by
  induction requests generalizing c s rows more with
  | nil =>
      cases run
      rw [List.append_nil]
      exact going
  | cons request rest ih =>
      rw [answers_cons] at run
      rcases first : request.answer (c, s) with ⟨_ | taken, ⟨d, store⟩⟩ <;> rw [first] at run
      · cases run
      simp only at run
      rcases later : Cursor.answers rest (d, store) with ⟨_ | left, w⟩ <;> rw [later] at run <;>
        cases run
      have step := going.answer (on request List.mem_cons_self)
        (fun row id same named => deletes id ⟨row, same ▸ List.mem_cons_self, named⟩) first
      rw [← List.append_assoc]
      refine ih step (fun r member => on r (List.mem_cons_of_mem _ member)) (fun id => ?_) later
      rintro ⟨row, member, named⟩
      exact deletes id ⟨row, List.mem_cons_of_mem _ member, named⟩

/-! ### What was answered -/

/-- Rows in the strict order of their ids. -/
theorem ids_of_ordered {rows : List Row} (ordered : rows.Pairwise fun a b =>
      ∃ i j, a.id? = some i ∧ b.id? = some j ∧ i < j) (named : ∀ row ∈ rows, row.id?.isSome = true) :
    ∃ ids : List RecordId, rows.map Row.id? = ids.map some ∧ ids.Pairwise (· < ·) := by
  induction rows with
  | nil => exact ⟨[], rfl, .nil⟩
  | cons row rest ih =>
      obtain ⟨first, others⟩ := List.pairwise_cons.1 ordered
      obtain ⟨ids, same, ascending⟩ := ih others fun r member => named r (List.mem_cons_of_mem _ member)
      obtain ⟨id, own⟩ := Option.isSome_iff_exists.1 (named row List.mem_cons_self)
      refine ⟨id :: ids, by rw [List.map_cons, own, same, List.map_cons], ?_⟩
      refine List.pairwise_cons.2 ⟨fun later member => ?_, ascending⟩
      have listed : some later ∈ rest.map Row.id? := same ▸ List.mem_map_of_mem member
      obtain ⟨other, there, of_later⟩ := List.mem_map.1 listed
      obtain ⟨i, j, of_row, of_other, before⟩ := first other there
      rw [own] at of_row
      rw [of_later] at of_other
      cases of_row
      cases of_other
      exact before

/-- In rows in strict order a row is found once. -/
theorem filter_of_ordered {rows : List Row} {id : RecordId} {values : List Value}
    (ordered : rows.Pairwise fun a b => ∃ i j, a.id? = some i ∧ b.id? = some j ∧ i < j)
    (member : ⟨some id, values⟩ ∈ rows) :
    rows.filter (fun row => decide (row.id? = some id)) = [⟨some id, values⟩] := by
  induction rows with
  | nil => cases member
  | cons row rest ih =>
      obtain ⟨first, others⟩ := List.pairwise_cons.1 ordered
      have apart : ∀ {later : Row}, later ∈ rest → later.id? ≠ row.id? := by
        intro later there same
        obtain ⟨i, j, of_row, of_later, before⟩ := first later there
        rw [same, of_row, Option.some.injEq] at of_later
        subst of_later
        exact RecordId.lt_asymm before before
      rcases List.mem_cons.1 member with rfl | later
      · rw [List.filter_cons_of_pos (by simp), List.filter_eq_nil_iff.2]
        intro other there
        simpa using apart there
      · have other : ¬ row.id? = some id := fun same => apart later same.symm
        rw [List.filter_cons_of_neg (by simpa using other), ih others later]

/-- At the end no row is left out. -/
theorem Going.listed (going : Going file txn contents gone rows c s) (ended : c.Ended s)
    {id : RecordId} {values : List Value} (stored : contents id = some values)
    (own : id.page.table = file.id) (stays : ¬ gone id) : ⟨some id, values⟩ ∈ rows := by
  have seen := going.kept id values stored own stays
  have inside := going.legible.seen_inside seen own
  obtain ⟨dry, known, passed⟩ := ended
  rw [going.onFile] at known
  have found := going.found id values stored own stays (by omega)
  rwa [dry, List.append_nil] at found

/-- **A table that changes on the way.**  A transaction opens a cursor on a table, takes rows,
looks whether there are more, and inserts and deletes rows of the table as it likes, and no
request fails.  Then the rows come in the strict order of their ids; a look tells whether the
next call answers a row, and more looks before such calls change nothing; and when a call answers
none, each row that was in the table at the beginning, and was not deleted, has been answered
exactly once. -/
theorem answers_own_changes (legible : s.Legible c.file) {requests : List Request}
    (on : ∀ request ∈ requests, request.On c.file.id)
    (run : answers requests (openFirst (c, s)).2 = (.ok rows, now, after)) :
    (∃ ids : List RecordId, rows.map Row.id? = ids.map some ∧ ids.Pairwise (· < ·)) ∧
      (∀ found w, hasNext (now, after) = (.ok found, w) →
        ∃ answer, (next w).1 = .ok answer ∧ answer.isSome = found) ∧
      (∀ others, Peeks requests others →
        answers others (openFirst (c, s)).2 = (.ok rows, now, after)) ∧
      ∀ w, next (now, after) = (.ok none, w) → ∀ id values, s.seen c.txn id = some values →
        id.page.table = c.file.id → ¬ Deletes requests id →
          rows.filter (fun row => decide (row.id? = some id)) = [⟨some id, values⟩] := by
  have start : openFirst (c, s) = (.ok (), (openFirst (c, s)).2.1, s) := rfl
  have ran : answers requests ((openFirst (c, s)).2.1, s) = (.ok rows, now, after) := by
    rwa [start] at run
  have going := (going_openFirst legible (Deletes requests)).answers on (fun _ gone => gone) ran
  rw [List.nil_append] at going
  obtain ⟨ordered, -, -⟩ := List.pairwise_append.1 going.ordered
  refine ⟨ids_of_ordered ordered fun row member => ?_, fun found w looked => ?_,
    fun others peeks => ?_, fun w ended id values stored own stays => ?_⟩
  · obtain ⟨id, named, -⟩ := going.behind row (List.mem_append_left _ member)
    rw [named]
    rfl
  · obtain ⟨-, same, answer, answered, is_found⟩ := next_of_hasNext going.isOpen looked
    exact ⟨answer, by rw [same]; exact answered, is_found⟩
  · rw [← run, start]
    exact answers_of_peeks peeks rfl
  · obtain ⟨now', after'⟩ := w
    have passes := passes_next (by rw [going.onFile]; exact going.legible) ended
    obtain ⟨still, last⟩ := next_leaves ended
    have past := going.passes passes (still.trans going.isOpen)
    rw [Option.toList_none, List.append_nil] at past
    exact filter_of_ordered ordered (past.listed (last rfl) stored own stays)

/-- The row of this page, which has room for one. -/
def flagRow (number : Nat) (flag : Bool) : Row :=
  ⟨some ⟨⟨TableFile.flags.id, number⟩, 0⟩, [.bool flag]⟩

/-- The second of two rows is taken out and another one put in its place before the cursor comes
to its page. -/
def replacesSecond : List Request :=
  [.next, .delete (flagRow 1 true), .insert [.bool false], .next]

theorem answers_own_changes_flags : ∃ rows now after w,
    answers replacesSecond (openFirst (new .flags ⟨3⟩, Running.twoRows)).2 =
        (.ok rows, now, after) ∧ next (now, after) = (.ok none, w) ∧
      answers [.look, .next, .delete (flagRow 1 true), .insert [.bool false], .look, .look, .next]
        (openFirst (new .flags ⟨3⟩, Running.twoRows)).2 = (.ok rows, now, after) ∧
      rows = [flagRow 0 true, flagRow 1 false] ∧
      rows.filter (fun row => decide (row.id? = (flagRow 0 true).id?)) = [flagRow 0 true] := by
  have reachable : Running.twoRows.Reachable :=
    (((Store.Reachable.prepared Store.fresh_flags.prepared).called _ _).called _ _).called _ _
  have listed : Running.twoRows.catalog.file TableFile.flags.id = .ok .flags := by cbv
  have whole : Running.twoRows.wholePages .flags = 2 := by cbv
  obtain ⟨legible, -⟩ := reachable.legible listed (by rw [whole]; decide)
  have answered : (answers replacesSecond (openFirst (new .flags ⟨3⟩, Running.twoRows)).2).1 =
      .ok [flagRow 0 true, flagRow 1 false] := by cbv
  have ended : (next (answers replacesSecond
      (openFirst (new .flags ⟨3⟩, Running.twoRows)).2).2).1 = .ok none := by cbv
  have first : Running.twoRows.seen ⟨3⟩ ⟨⟨TableFile.flags.id, 0⟩, 0⟩ = some [.bool true] := by cbv
  have on : ∀ request ∈ replacesSecond, request.On TableFile.flags.id := by
    simp [replacesSecond, Request.On, flagRow]
  have spared : ¬ Deletes replacesSecond ⟨⟨TableFile.flags.id, 0⟩, 0⟩ := by
    rintro ⟨row, member, named⟩
    obtain rfl : row = flagRow 1 true := by simpa [replacesSecond] using member
    cases named
  obtain ⟨⟨now, after⟩, run⟩ : ∃ w, answers replacesSecond
      (openFirst (new .flags ⟨3⟩, Running.twoRows)).2 =
        (.ok [flagRow 0 true, flagRow 1 false], w) := ⟨_, Prod.fst_eq_iff.1 answered⟩
  rw [run] at ended
  obtain ⟨w, last⟩ : ∃ w, next (now, after) = (.ok none, w) := ⟨_, Prod.fst_eq_iff.1 ended⟩
  obtain ⟨-, -, looks, once⟩ := answers_own_changes (c := new .flags ⟨3⟩) legible on run
  have peeks : Peeks replacesSecond [.look, .next, .delete (flagRow 1 true),
      .insert [.bool false], .look, .look, .next] :=
    .look trivial (.same (.same (.same (.look trivial (.look trivial (.same .done))))))
  exact ⟨_, now, after, w, run, last, looks _ peeks, rfl, once w last _ _ first rfl spared⟩

/-- **A row that is lost on the way.**  A table was not replaced, and its rows went with its
file, but the page of one of them is still resident.  A transaction scans the table and sees the
row.  It opens a cursor, inserts a row, which evicts the page, and goes through the table to the
end: the row that it has seen is not among those answered, although it has deleted nothing. -/
theorem row_lost_on_the_way : ∃ before after w,
    Running.outlived.Settled Store.onlyFlags ∧
      StoreAction.scan ⟨3⟩ TableFile.flags.id Running.outlived =
        (.ok [flagRow 1 true, flagRow 2 false], before) ∧
      answers [.insert [.bool true], .next, .next] (openFirst (new .flags ⟨3⟩, before)).2 =
        (.ok [flagRow 0 true, flagRow 2 false], after) ∧
      next after = (.ok none, w) := by
  have scanned : (StoreAction.scan ⟨3⟩ TableFile.flags.id Running.outlived).1 =
      .ok [flagRow 1 true, flagRow 2 false] := by cbv
  have answered : (answers [.insert [.bool true], .next, .next] (openFirst (new .flags ⟨3⟩,
      (StoreAction.scan ⟨3⟩ TableFile.flags.id Running.outlived).2)).2).1 =
        .ok [flagRow 0 true, flagRow 2 false] := by cbv
  have ended : (next (answers [.insert [.bool true], .next, .next] (openFirst (new .flags ⟨3⟩,
      (StoreAction.scan ⟨3⟩ TableFile.flags.id Running.outlived).2)).2).2).1 = .ok none := by cbv
  exact ⟨_, _, _, Running.settled_outlived, Prod.fst_eq_iff.1 scanned, Prod.fst_eq_iff.1 answered,
    Prod.fst_eq_iff.1 ended⟩

end Cursor

end RowStore
