/-
# RowStore.Proofs.Query.Steps -- how the sources run

One equation for every call of every source: it says by cases what the call makes of the
state and the store, in terms of the calls of the child.  The loops over a child are opened
one turn at a time.  Statements about sources are derived from these equations and open no
source again.
-/
import RowStore.Proofs.Cursor.Position
import RowStore.Query.Plan

namespace RowStore

set_option autoImplicit false

open RowStore.Action

namespace Step

variable {σ α β : Type}

theorem except_apply (r : Except Stop α) (w : σ × Store) :
    (MonadExcept.ofExcept r : Step σ α) w = (r, w) := by
  cases r <;> rfl

variable {next : Step σ (Option Row)} {fold : β → Row → Step σ β} {st : σ} {s : Store}

/-- One turn of the loop over all rows. -/
theorem foldRows_succ (bound : Nat) (acc : β) :
    foldRows next fold (bound + 1) acc (st, s) =
      match next (st, s) with
      | (.error stop, now) => (.error stop, now)
      | (.ok none, now) => (.ok acc, now)
      | (.ok (some row), now) =>
          match fold acc row now with
          | (.error stop, now) => (.error stop, now)
          | (.ok acc, now) => foldRows next fold bound acc now := by
  rw [foldRows, bind_apply]
  rcases next (st, s) with ⟨_ | _ | row, now⟩
  · rfl
  · rfl
  · dsimp only
    rw [bind_apply]
    rcases fold acc row now with ⟨_ | _, _⟩ <;> rfl

end Step

/-! ## Cursors -/

namespace Cursor

variable {c : Cursor} {s : Store}

theorem next_apply :
    next (c, s) =
      if !c.isOpen then (.error (.fault .cursorClosed), c, s)
      else
        match c.ready with
        | row :: rest => (.ok (some row), { c with ready := rest }, s)
        | [] => advance (max c.knownPages (s.pageCount c.file) - c.nextPage + 1) (c, s) := by
  obtain ⟨file, txn, _ | _, number, known, _ | ⟨row, rest⟩⟩ := c <;> rfl

theorem rewind_apply :
    rewind (c, s) =
      if !c.isOpen then (.error (.fault .cursorClosed), c, s)
      else (.ok (), ⟨c.file, c.txn, true, 0, s.pageCount c.file, []⟩, s) := by
  obtain ⟨file, txn, _ | _, number, known, ready⟩ := c <;> rfl

end Cursor

namespace Source

variable {σ : Type}

/-! ## Scans -/

section

variable {txn : TxnId} {table : TableId} {st : ScanState} {s : Store} {bound : Nat}

theorem onCursor_apply {α : Type} (step : Step Cursor α) :
    onCursor step (st, s) =
      match st.cursor? with
      | none => (.error (.plan .notStarted), st, s)
      | some c =>
          ((step (c, s)).1, { st with cursor? := some (step (c, s)).2.1 }, (step (c, s)).2.2) := by
  simp only [onCursor, bind_apply, Step.own_apply]
  cases st.cursor? <;> rfl

/-- The cursor of a scan that starts. -/
def opened (file : TableFile) (txn : TxnId) (s : Store) : Cursor :=
  ⟨file, txn, true, 0, s.pageCount file, []⟩

theorem scan_start :
    (scan txn table).start (st, s) =
      if st.cursor?.isSome then (.ok (), st, s)
      else
        match s.catalog.file table with
        | .error fault => (.error (.fault fault), st, s)
        | .ok file => (.ok (), ⟨some (opened file txn s), file.schema⟩, s) := by
  simp only [scan, bind_apply, Step.own_apply]
  split
  · rfl
  · simp only [bind_apply, Step.onStore_apply, StoreAction.tableFile, StoreAction.query_apply]
    cases s.catalog.file table <;> rfl

theorem scan_next :
    (scan txn table).next bound (st, s) = onCursor Cursor.next (st, s) := rfl

theorem scan_rewind :
    (scan txn table).rewind (st, s) = onCursor Cursor.rewind (st, s) := rfl

end

/-! ## Given rows -/

section

variable {schema : Schema} {given left : List (List Value)} {s : Store} {bound : Nat}

theorem ofRows_start_cases (schema : Schema) (given left : List (List Value)) (s : Store) :
    (∃ row ∈ given, ∃ fault, schema.check row = .error fault ∧
        (ofRows schema given).start (left, s) = (.error (.fault (.badShape fault)), left, s)) ∨
      (∀ row ∈ given, schema.check row = .ok ()) ∧
        (ofRows schema given).start (left, s) = (.ok (), left, s) := by
  simp only [ofRows]
  induction given with
  | nil => exact Or.inr ⟨nofun, rfl⟩
  | cons first rest ih =>
      simp only [List.forM, bind_apply]
      cases checked : schema.check first with
      | error fault => exact Or.inl ⟨first, List.mem_cons_self, fault, checked, rfl⟩
      | ok =>
          rcases ih with ⟨row, member, fault, refused, same⟩ | ⟨others, same⟩
          · exact Or.inl ⟨row, List.mem_cons_of_mem _ member, fault, refused, same⟩
          · refine Or.inr ⟨fun row member => ?_, same⟩
            rcases List.mem_cons.1 member with rfl | later
            · exact checked
            · exact others row later

theorem ofRows_next :
    (ofRows schema given).next bound (left, s) =
      match left with
      | [] => (.ok none, left, s)
      | values :: rest => (.ok (some (Row.fresh values)), rest, s) := by
  simp only [ofRows, bind_apply, Step.own_apply]
  cases left <;> rfl

theorem ofRows_rewind : (ofRows schema given).rewind (left, s) = (.ok (), given, s) := rfl

end

/-! ## Filters -/

section

variable {child : Source σ} {predicate : Predicate} {st : Started σ} {s : Store} {c : σ}
  {bound : Nat}

theorem once_apply (prepare : Step (Started σ) Unit) :
    Started.once prepare (st, s) =
      if st.ready then (.ok (), st, s)
      else
        match prepare (st, s) with
        | (.error stop, now) => (.error stop, now)
        | (.ok (), now) => (.ok (), { now.1 with ready := true }, now.2) := by
  simp only [Started.once, bind_apply, Step.own_apply]
  split
  · rfl
  · simp only [bind_apply]
    rcases prepare (st, s) with ⟨_ | _, _⟩ <;> rfl

theorem onChild_apply {α : Type} (step : Step σ α) :
    Started.onChild step (st, s) =
      ((step (st.child, s)).1, { st with child := (step (st.child, s)).2.1 },
        (step (st.child, s)).2.2) := rfl

theorem ensureReady_apply :
    Started.ensureReady (st, s) =
      (if st.ready then .ok () else .error (.plan .notStarted), st, s) := by
  simp only [Started.ensureReady, bind_apply, Step.own_apply]
  cases st.ready <;> rfl

/-- One turn of the search for a row that satisfies the predicate. -/
theorem firstHolding_succ (step : Step σ (Option Row)) (bound : Nat) :
    firstHolding step predicate (bound + 1) (c, s) =
      match step (c, s) with
      | (.error stop, now) => (.error stop, now)
      | (.ok none, now) => (.ok none, now)
      | (.ok (some row), now) =>
          if predicate.holds row then (.ok (some row), now)
          else firstHolding step predicate bound now := by
  rw [firstHolding, bind_apply]
  rcases step (c, s) with ⟨_ | _ | row, now⟩
  · rfl
  · rfl
  · dsimp only
    split <;> rfl

theorem filter_start :
    (filter child predicate).start (st, s) =
      if st.ready then (.ok (), st, s)
      else
        match child.start (st.child, s) with
        | (.error stop, c, after) => (.error stop, { st with child := c }, after)
        | (.ok (), c, after) =>
            if (child.schema c).arity ≤ predicate.column then
              (.error (.fault (.badShape (.predicateColumn predicate (child.schema c).arity))),
                { st with child := c }, after)
            else (.ok (), ⟨c, true⟩, after) := by
  simp only [filter, once_apply, bind_apply, onChild_apply]
  split
  · rfl
  · rcases child.start (st.child, s) with ⟨_ | _, c, after⟩
    · rfl
    · simp only [Step.own_apply]
      by_cases short : (child.schema c).arity ≤ predicate.column
      · simp only [short, if_true]
        rfl
      · simp only [short, if_false]
        rfl

theorem filter_next :
    (filter child predicate).next bound (st, s) =
      if st.ready then
        match firstHolding (child.next bound) predicate bound (st.child, s) with
        | (answer, c, after) => (answer, { st with child := c }, after)
      else (.error (.plan .notStarted), st, s) := by
  obtain ⟨c, _ | _⟩ := st <;> rfl

theorem filter_rewind :
    (filter child predicate).rewind (st, s) =
      match child.rewind (st.child, s) with
      | (answer, c, after) => (answer, { st with child := c }, after) := rfl

end

/-! ## Changes -/

section

variable {child : Source σ} {prepare : Step σ Unit} {edit : Row → StoreAction Unit}
  {st : ChangeState σ} {s : Store} {bound : Nat}

theorem change_start :
    (change child prepare edit).start (st, s) =
      if st.inner.ready then (.ok (), st, s)
      else
        match prepare (st.inner.child, s) with
        | (.error stop, c, after) => (.error stop, { st with inner.child := c }, after)
        | (.ok (), c, after) => (.ok (), { st with inner := ⟨c, true⟩ }, after) := by
  simp only [change, ChangeState.onInner, Step.onPart_apply, once_apply, onChild_apply]
  split
  · rfl
  · rcases prepare (st.inner.child, s) with ⟨_ | _, c, after⟩ <;> rfl

theorem change_next :
    (change child prepare edit).next bound (st, s) =
      if st.inner.ready then
        if st.done then (.ok none, st, s)
        else
          match changeAll child edit bound (st.inner.child, s) with
          | (.error stop, c, after) => (.error stop, { st with inner.child := c }, after)
          | (.ok count, c, after) =>
              (.ok (some (Row.fresh [.int (Int32.ofNat count)])),
                ⟨{ st.inner with child := c }, true⟩, after)
      else (.error (.plan .notStarted), st, s) := by
  obtain ⟨⟨c, _ | _⟩, _ | _⟩ := st
  case true.false =>
    simp only [change, ChangeState.onInner, bind_apply, Step.onPart_apply, ensureReady_apply,
      Step.own_apply, if_true, Bool.false_eq_true, if_false, onChild_apply]
    rcases changeAll child edit bound (c, s) with ⟨_ | _, c, after⟩ <;> rfl
  all_goals rfl

theorem change_rewind :
    (change child prepare edit).rewind (st, s) =
      match child.rewind (st.inner.child, s) with
      | (.error stop, c, after) => (.error stop, { st with inner.child := c }, after)
      | (.ok (), c, after) => (.ok (), ⟨{ st.inner with child := c }, false⟩, after) := by
  simp only [change, ChangeState.onInner, bind_apply, Step.onPart_apply, onChild_apply]
  rcases child.rewind (st.inner.child, s) with ⟨_ | _, c, after⟩ <;> rfl

end

/-! ## Aggregates -/

section

variable {child : Source σ} {a : Aggregation} {st : GroupingState σ} {s : Store} {c : σ}
  {bound : Nat}

theorem aggregate_start :
    (aggregate child a).start (st, s) =
      if st.inner.ready then (.ok (), st, s)
      else
        match child.start (st.inner.child, s) with
        | (.error stop, c, after) => (.error stop, { st with inner.child := c }, after)
        | (.ok (), c, after) =>
            match a.outputSchema (child.schema c) with
            | .error stop => (.error stop, { st with inner.child := c }, after)
            | .ok schema => (.ok (), { st with inner := ⟨c, true⟩, schema }, after) := by
  simp only [aggregate, bind_apply, Step.own_apply]
  split
  · rfl
  · simp only [bind_apply, GroupingState.onInner, Step.onPart_apply, onChild_apply]
    rcases child.start (st.inner.child, s) with ⟨_ | _, c, after⟩
    · rfl
    · simp only [Step.own_apply, Step.except_apply]
      rcases a.outputSchema (child.schema c) with _ | schema <;> rfl

theorem compute_apply :
    compute child a bound (c, s) =
      match Step.foldRows (child.next bound)
          (fun groups row => MonadExcept.ofExcept (a.addRow groups row)) bound ∅ (c, s) with
      | (.error stop, now) => (.error stop, now)
      | (.ok groups, now) => ((a.results groups).mapError Stop.fault, now) := by
  simp only [compute, bind_apply]
  rcases Step.foldRows (child.next bound)
    (fun groups row => MonadExcept.ofExcept (a.addRow groups row)) bound ∅ (c, s) with
    ⟨_ | groups, now⟩
  · rfl
  · dsimp only
    cases a.results groups <;> rfl

/-- The results that are there, or else those of the child's rows. -/
def pending (child : Source σ) (a : Aggregation) (bound : Nat) :
    Option (List Row) → Step σ (List Row)
  | some rows => pure rows
  | none => compute child a bound

theorem aggregate_next :
    (aggregate child a).next bound (st, s) =
      if st.inner.ready then
        match pending child a bound st.results? (st.inner.child, s) with
        | (.error stop, c, after) => (.error stop, { st with inner.child := c }, after)
        | (.ok rows, c, after) =>
            (.ok rows.head?, { st with inner.child := c, results? := some rows.tail }, after)
      else (.error (.plan .notStarted), st, s) := by
  obtain ⟨⟨c, _ | _⟩, schema, _ | rows⟩ := st
  case true.none =>
    simp only [aggregate, GroupingState.onInner, bind_apply, Step.onPart_apply, ensureReady_apply,
      Step.own_apply, if_true, onChild_apply, pending]
    rcases compute child a bound (c, s) with ⟨_ | _ | _, c, after⟩ <;> rfl
  case true.some => cases rows <;> rfl
  all_goals rfl

theorem aggregate_rewind :
    (aggregate child a).rewind (st, s) =
      match child.rewind (st.inner.child, s) with
      | (.error stop, c, after) => (.error stop, { st with inner.child := c }, after)
      | (.ok (), c, after) => (.ok (), { st with inner.child := c, results? := none }, after) := by
  simp only [aggregate, GroupingState.onInner, bind_apply, Step.onPart_apply, onChild_apply]
  rcases child.rewind (st.inner.child, s) with ⟨_ | _, c, after⟩ <;> rfl

end

end Source

end RowStore
