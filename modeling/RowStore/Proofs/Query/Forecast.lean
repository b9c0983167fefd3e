/-
# RowStore.Proofs.Query.Forecast -- the rows that are still to come

A plan that only reads has a meaning in a store: the rows of its tables, filtered and grouped
(`Plan.rows?`).  What a source still has to answer is said by a forecast.  A call for a row
takes the first row off it and leaves the rest (`Source.Foretells`), which is proved for one
operator at a time and then for plans.  A start makes the meaning of the plan the forecast,
and so does a rewind, wherever the plan was before (`Plan.ahead_of_start`,
`Plan.ahead_of_rewind`).

A forecast is about calls that do not fail.  It is made for a faithful store, and holds as
long as nothing of the tables changes.
-/
import RowStore.Proofs.Query.Typing
import RowStore.Proofs.Store.Faithful

namespace RowStore

set_option autoImplicit false

open RowStore.Action

/-! ## What a plan means -/

/-- The results for these rows, unless one of them is too large. -/
def Aggregation.outcome (a : Aggregation) (rows : List Row) : Option (List Row) :=
  match rows.foldlM a.addRow ∅ with
  | .ok groups => (a.results groups).toOption
  | .error _ => none

namespace Plan

/-- The plan changes nothing. -/
def ReadOnly : Plan → Prop
  | .scan _ | .rows _ _ => True
  | .filter child _ | .aggregate child _ => child.ReadOnly
  | .insert _ _ | .delete _ => False

/-- The rows of a plan that only reads, if there are no failures. -/
def rows? (files : TableId → Option TableFile) (s : Store) : Plan → Option (List Row)
  | .scan table => (files table).bind fun file => s.rowsOn file (List.range (s.pageCount file))
  | .rows _ given => some (given.map Row.fresh)
  | .filter child predicate => (child.rows? files s).map (List.filter predicate.holds)
  | .aggregate child a => (child.rows? files s).bind a.outcome
  | .insert _ _ | .delete _ => none

end Plan

variable {files : TableId → Option TableFile}

theorem Store.Still.rows? {s after : Store} (still : s.Still files after) (p : Plan) :
    p.rows? files after = p.rows? files s := by
  induction p with
  | scan table => simp only [Plan.rows?, still.rowsOn, still.pageCount]
  | rows schema given => rfl
  | filter child predicate ih => rw [Plan.rows?, ih, Plan.rows?]
  | aggregate child a ih => rw [Plan.rows?, ih, Plan.rows?]
  | insert table child => rfl
  | delete child => rfl

/-! ## Cursors -/

namespace Cursor

/-- The rows that a cursor has still to answer. -/
def ahead (c : Cursor) (s : Store) : Option (List Row) :=
  (s.rowsOn c.file (List.range' c.nextPage (s.pageCount c.file - c.nextPage))).map (c.ready ++ ·)

/-- The cursor is open on the file of the table, and knows no more pages than there are. -/
structure OpenOn (files : TableId → Option TableFile) (table : TableId) (c : Cursor) (s : Store) :
    Prop where
  isOpen : c.isOpen = true
  own : c.file.id = table
  listed : files table = some c.file
  known : c.knownPages ≤ s.pageCount c.file

variable {table : TableId} {c now : Cursor} {s after : Store}

theorem ahead_cons (c : Cursor) (row : Row) (rest : List Row) :
    ahead { c with ready := row :: rest } s = (ahead { c with ready := rest } s).map (row :: ·) := by
  unfold ahead
  rw [Option.map_map]
  rfl

/-- The rows of the next page become ready. -/
theorem ahead_passed (none : c.ready = []) (inside : c.nextPage < s.pageCount c.file)
    {front : List Row} (listed : s.rowsAt c.file c.nextPage = some front) (known : Nat) :
    c.ahead s = ahead { c.passed known with ready := front } s := by
  obtain ⟨left, more⟩ := Nat.exists_eq_add_of_lt inside
  have here : s.pageCount c.file - c.nextPage = left + 1 := by omega
  have later : s.pageCount c.file - (c.nextPage + 1) = left := by omega
  unfold ahead
  rw [here, List.range'_succ, Store.rowsOn, listed, none]
  show _ = (s.rowsOn c.file (List.range' (c.nextPage + 1) (s.pageCount c.file - (c.nextPage + 1)))).map
    (front ++ ·)
  rw [later]
  cases s.rowsOn c.file (List.range' (c.nextPage + 1) left) <;> rfl

theorem ahead_past (none : c.ready = []) (past : s.pageCount c.file ≤ c.nextPage) :
    c.ahead s = some [] := by
  unfold ahead
  rw [Nat.sub_eq_zero_of_le past, none]
  rfl

theorem OpenOn.still (on : c.OpenOn files table s) (still : s.Still files after) :
    c.OpenOn files table after ∧ c.ahead after = c.ahead s := by
  refine ⟨⟨on.isOpen, on.own, on.listed, ?_⟩, ?_⟩
  · rw [still.pageCount]
    exact on.known
  · unfold ahead
    rw [still.rowsOn, still.pageCount]

/-- The first row is taken off what was to come. -/
def Took (files : TableId → Option TableFile) (table : TableId) (c : Cursor) (s : Store)
    (answer : Option Row) (now : Cursor) (after : Store) : Prop :=
  s.Still files after ∧ now.OpenOn files table after ∧
    match answer with
    | none => c.ahead s = some [] ∧ now.ahead after = some []
    | some row => c.ahead s = (now.ahead after).map (row :: ·)

theorem OpenOn.reckoned_le (on : c.OpenOn files table s) : c.reckoned s ≤ s.pageCount c.file := by
  unfold reckoned
  split
  · exact Nat.le_refl _
  · exact on.known

/-- **One turn of the loop** over the pages: the end is reached, the page cannot be read, it
has no rows and the loop goes on, or its rows become ready and the first of them is
answered. -/
theorem OpenOn.turn_cases (on : c.OpenOn files table s) (faithful : s.Faithful files) {bound : Nat}
    {answer : Except Stop (Option Row)}
    (run : Cursor.advance (bound + 1) (c, s) = (answer, now, after)) :
    (s.pageCount c.file ≤ c.nextPage ∧ answer = .ok none ∧
        now = { c with knownPages := c.reckoned s } ∧ after = s) ∨
      c.nextPage < s.pageCount c.file ∧
        ((∃ stop, answer = .error stop ∧ now = c.passed (c.reckoned s) ∧ s.Still files after ∧
            ((∃ fault, stop = .fault fault) ∨
              (StoreAction.readPage c.txn ⟨c.file.id, c.nextPage⟩ .shared s).1 = .error stop)) ∨
          ∃ mid front, s.Still files mid ∧ s.rowsAt c.file c.nextPage = some front ∧
            ((front = [] ∧
                Cursor.advance bound (c.passed (c.reckoned s), mid) = (answer, now, after)) ∨
              ∃ row rest, front = row :: rest ∧ answer = .ok (some row) ∧
                now = { c.passed (c.reckoned s) with ready := rest } ∧ after = mid)) := by
  have counted := on.reckoned_le
  rw [advance_succ] at run
  split at run
  · rename_i ended
    have past : s.pageCount c.file ≤ c.nextPage := by
      unfold reckoned at ended
      split at ended
      · exact ended
      · rename_i fewer
        exact absurd ended fewer
    cases run
    exact Or.inl ⟨past, rfl, rfl, rfl⟩
  rename_i more
  have inside : c.nextPage < s.pageCount c.file := by omega
  refine Or.inr ⟨inside, ?_⟩
  rcases read : StoreAction.readPage c.txn ⟨c.file.id, c.nextPage⟩ .shared s with
    ⟨stop | frame, mid⟩ <;> rw [read] at run
  all_goals have still := Store.Still.readPage faithful read
  · cases run
    exact Or.inl ⟨stop, rfl, rfl, still, Or.inr rfl⟩
  have listed : files c.file.id = some c.file := by rw [on.own, on.listed]
  have page := Store.pageAt_of_readPage faithful listed inside read
  have front : s.rowsAt c.file c.nextPage = frame.page.rows.toOption := by
    rw [Store.rowsAt, page]
  simp only at run
  split at run
  · rename_i fault failed
    cases run
    exact Or.inl ⟨_, rfl, rfl, still, Or.inl ⟨fault, rfl⟩⟩
  · rename_i empty
    rw [empty] at front
    exact Or.inr ⟨mid, [], still, front, Or.inl ⟨rfl, run⟩⟩
  · rename_i row rest rows
    rw [rows] at front
    cases run
    exact Or.inr ⟨after, row :: rest, still, front, Or.inr ⟨row, rest, rfl, rfl, rfl, rfl⟩⟩

theorem OpenOn.passed (on : c.OpenOn files table s) :
    (c.passed (c.reckoned s)).OpenOn files table s :=
  ⟨on.isOpen, on.own, on.listed, on.reckoned_le⟩

theorem OpenOn.advance (on : c.OpenOn files table s) (faithful : s.Faithful files)
    (none : c.ready = []) {bound : Nat} {answer : Option Row}
    (run : Cursor.advance bound (c, s) = (.ok answer, now, after)) :
    c.Took files table s answer now after := by
  induction bound generalizing c s with
  | zero => cases run
  | succ bound ih =>
      rcases on.turn_cases faithful run with ⟨past, same, rfl, rfl⟩ | ⟨inside, ⟨stop, same, -⟩ |
        ⟨mid, front, still, listed, ⟨rfl, onward⟩ | ⟨row, rest, rfl, same, rfl, rfl⟩⟩⟩
      · cases same
        exact ⟨.refl faithful, ⟨on.isOpen, on.own, on.listed, on.reckoned_le⟩,
          ahead_past none past, ahead_past none past⟩
      · cases same
      · have step : c.ahead s = (c.passed (c.reckoned s)).ahead s := by
          have passed := ahead_passed none inside listed (c.reckoned s)
          rw [← none] at passed
          exact passed
        obtain ⟨there, moved⟩ := on.passed.still still
        obtain ⟨more, last, took⟩ := ih there still.faithful none onward
        refine ⟨still.trans more, last, ?_⟩
        rw [step, ← moved]
        exact took
      · cases same
        have step := ahead_passed none inside listed (c.reckoned s)
        have open' : OpenOn files table { c.passed (c.reckoned s) with ready := rest } s :=
          ⟨on.isOpen, on.own, on.listed, on.reckoned_le⟩
        obtain ⟨there, moved⟩ := open'.still still
        refine ⟨still, there, ?_⟩
        show c.ahead s = _
        rw [moved, step, ahead_cons]

theorem OpenOn.next (on : c.OpenOn files table s) (faithful : s.Faithful files)
    {answer : Option Row} (run : Cursor.next (c, s) = (.ok answer, now, after)) :
    c.Took files table s answer now after := by
  rw [next_apply, if_neg (by simp [on.isOpen])] at run
  split at run
  · rename_i row rest ready
    cases run
    refine ⟨.refl faithful, ⟨on.isOpen, on.own, on.listed, on.known⟩, ?_⟩
    show c.ahead s = _
    rw [← ahead_cons, ← ready]
  · rename_i none
    exact on.advance faithful none run

end Cursor

/-! ## Forecasts -/

namespace Source

/-- What a state of a source says about the rows that are still to come: all of them, unless
some cannot be computed. -/
abbrev Forecast (σ : Type) := Store → σ → Option (List Row) → Prop

/-- What an answer leaves of the rows that were to come. -/
def Leaves (Later : Option (List Row) → Prop) : Option Row → Option (List Row) → Prop
  | none, rows? => rows? = some [] ∧ Later (some [])
  | some row, rows? => ∃ left?, rows? = left?.map (row :: ·) ∧ Later left?

/-- The forecast comes true, and reading changes nothing of the tables. -/
structure Foretells {σ : Type} (files : TableId → Option TableFile) (source : Source σ)
    (ahead : Forecast σ) : Prop where
  still : ∀ {s after st rows?}, s.Still files after → ahead s st rows? → ahead after st rows?
  next : ∀ {bound st now s after rows? answer}, s.Faithful files → ahead s st rows? →
    source.next bound (st, s) = (.ok answer, now, after) →
      s.Still files after ∧ Leaves (ahead after now) answer rows?

variable {σ β : Type} {child : Source σ} {ahead : Forecast σ} {txn : TxnId} {table : TableId}

/-! ### Scans and given rows -/

def scanAhead (files : TableId → Option TableFile) (table : TableId) : Forecast ScanState :=
  fun s st rows? => ∃ c, st.cursor? = some c ∧ c.OpenOn files table s ∧ rows? = c.ahead s

theorem foretells_scan : Foretells files (scan txn table) (scanAhead files table) where
  still := by
    rintro s after st rows? still ⟨c, there, on, rfl⟩
    obtain ⟨onLater, same⟩ := on.still still
    exact ⟨c, there, onLater, same.symm⟩
  next := by
    rintro bound st now s after rows? answer faithful ⟨c, there, on, rfl⟩ run
    rw [scan_next, onCursor_apply, there] at run
    simp only at run
    rcases tried : Cursor.next (c, s) with ⟨reply, d, between⟩
    rw [tried] at run
    cases run
    obtain ⟨still, onLater, took⟩ := on.next faithful tried
    refine ⟨still, ?_⟩
    cases answer with
    | none => exact ⟨took.1, d, rfl, onLater, took.2.symm⟩
    | some row => exact ⟨_, took, d, rfl, onLater, rfl⟩

/-- A cursor before the first page has all rows of the table to answer. -/
theorem scanAhead_front {c : Cursor} {schema : Schema} {s : Store} (on : c.OpenOn files table s)
    (front : c.nextPage = 0) (none : c.ready = []) :
    scanAhead files table s ⟨some c, schema⟩
      ((files table).bind fun file => s.rowsOn file (List.range (s.pageCount file))) := by
  refine ⟨c, rfl, on, ?_⟩
  rw [on.listed, Option.bind_some, Cursor.ahead, front, none, Nat.sub_zero,
    ← List.range_eq_range']
  cases s.rowsOn c.file (List.range (s.pageCount c.file)) <;> rfl

theorem scanAhead_of_start {schema : Schema} {now : ScanState} {s after : Store}
    (faithful : s.Faithful files)
    (run : (scan txn table).start (⟨none, schema⟩, s) = (.ok (), now, after)) :
    s.Still files after ∧ scanAhead files table after now
      ((files table).bind fun file => s.rowsOn file (List.range (s.pageCount file))) := by
  rw [scan_start] at run
  simp only [Option.isSome_none, Bool.false_eq_true, if_false] at run
  split at run
  · cases run
  · rename_i file registered
    have own := (faithful.tables table file registered).1
    have listed := faithful.fits table file registered
    cases run
    exact ⟨.refl faithful, scanAhead_front ⟨rfl, own, listed, Nat.le_refl _⟩ rfl rfl⟩

theorem scanAhead_of_rewind {st now : ScanState} {s after : Store} (faithful : s.Faithful files)
    (sound : (scanPhases files table).sound st)
    (run : (scan txn table).rewind (st, s) = (.ok (), now, after)) :
    s.Still files after ∧ scanAhead files table after now
      ((files table).bind fun file => s.rowsOn file (List.range (s.pageCount file))) := by
  rw [scan_rewind, onCursor_apply] at run
  split at run
  · cases run
  · rename_i c there
    obtain ⟨on, -⟩ := sound c there
    rw [Cursor.rewind_apply] at run
    split at run
    · cases run
    · cases run
      exact ⟨.refl faithful, scanAhead_front ⟨rfl, on.own, on.listed, Nat.le_refl _⟩ rfl rfl⟩

def rowsAhead : Forecast (List (List Value)) := fun _ left rows? =>
  rows? = some (left.map Row.fresh)

theorem foretells_ofRows {schema : Schema} {given : List (List Value)} :
    Foretells files (ofRows schema given) rowsAhead where
  still := fun _ ahead => ahead
  next := by
    rintro bound left now s after rows? answer faithful rfl run
    rw [ofRows_next] at run
    cases left with
    | nil =>
        cases run
        exact ⟨.refl faithful, rfl, rfl⟩
    | cons values rest =>
        cases run
        exact ⟨.refl faithful, some (now.map Row.fresh), rfl, rfl⟩

theorem rowsAhead_of_start {schema : Schema} {given now : List (List Value)} {s after : Store}
    (faithful : s.Faithful files)
    (run : (ofRows schema given).start (given, s) = (.ok (), now, after)) :
    s.Still files after ∧ rowsAhead after now (some (given.map Row.fresh)) := by
  rcases ofRows_start_cases schema given given s with
    ⟨row, member, fault, refused, stopped⟩ | ⟨checked, done⟩
  · rw [stopped] at run
    cases run
  · rw [done] at run
    cases run
    exact ⟨.refl faithful, rfl⟩

theorem rowsAhead_of_rewind {schema : Schema} {given left now : List (List Value)}
    {s after : Store} (faithful : s.Faithful files)
    (run : (ofRows schema given).rewind (left, s) = (.ok (), now, after)) :
    s.Still files after ∧ rowsAhead after now (some (given.map Row.fresh)) := by
  rw [ofRows_rewind] at run
  cases run
  exact ⟨.refl faithful, rfl⟩

/-! ### Filters -/

def filterAhead (ahead : Forecast σ) (predicate : Predicate) : Forecast (Started σ) :=
  fun s st rows? => st.ready = true ∧
    ∃ given?, ahead s st.child given? ∧ rows? = given?.map (List.filter predicate.holds)

theorem Foretells.firstHolding (foretells : Foretells files child ahead) {predicate : Predicate}
    {bound turns : Nat} {c now : σ} {s after : Store} {given? : Option (List Row)}
    {answer : Option Row} (faithful : s.Faithful files) (before : ahead s c given?)
    (run : Source.firstHolding (child.next bound) predicate turns (c, s) =
      (.ok answer, now, after)) :
    s.Still files after ∧ Leaves (fun rows? => ∃ given?, ahead after now given? ∧
      rows? = given?.map (List.filter predicate.holds)) answer
        (given?.map (List.filter predicate.holds)) := by
  induction turns generalizing c s given? with
  | zero => cases run
  | succ turns ih =>
      rw [firstHolding_succ] at run
      rcases tried : child.next bound (c, s) with ⟨stop | reply, d, between⟩ <;> rw [tried] at run
      · cases run
      obtain ⟨still, leaves⟩ := foretells.next faithful before tried
      cases reply with
      | none =>
          cases run
          obtain ⟨rfl, later⟩ := leaves
          exact ⟨still, rfl, some [], later, rfl⟩
      | some row =>
          obtain ⟨left?, rfl, later⟩ := leaves
          simp only at run
          split at run
          · rename_i holds
            cases run
            refine ⟨still, left?.map (List.filter predicate.holds), ?_, left?, later, rfl⟩
            cases left? with
            | none => rfl
            | some left => simp [holds]
          · rename_i fails
            obtain ⟨more, last⟩ := ih still.faithful later run
            refine ⟨still.trans more, ?_⟩
            have same : (left?.map (row :: ·)).map (List.filter predicate.holds) =
                left?.map (List.filter predicate.holds) := by
              cases left? with
              | none => rfl
              | some left => simp [fails]
            rw [same]
            exact last

theorem foretells_filter (foretells : Foretells files child ahead) (predicate : Predicate) :
    Foretells files (filter child predicate) (filterAhead ahead predicate) where
  still := by
    rintro s after st rows? still ⟨ready, given?, before, rfl⟩
    exact ⟨ready, given?, foretells.still still before, rfl⟩
  next := by
    rintro bound st now s after rows? answer faithful ⟨ready, given?, before, rfl⟩ run
    rw [filter_next, if_pos ready] at run
    rcases searched : Source.firstHolding (child.next bound) predicate bound (st.child, s) with
      ⟨reply, c, between⟩
    rw [searched] at run
    cases run
    obtain ⟨still, leaves⟩ := foretells.firstHolding faithful before searched
    refine ⟨still, ?_⟩
    cases answer with
    | none => exact ⟨leaves.1, ready, leaves.2⟩
    | some row =>
        obtain ⟨left?, same, later⟩ := leaves
        exact ⟨left?, same, ready, later⟩

theorem filterAhead_of_start {predicate : Predicate} {start : σ} {now : Started σ}
    {s after : Store} {given? : Option (List Row)}
    (begins : ∀ {c between}, child.start (start, s) = (.ok (), c, between) →
      s.Still files between ∧ ahead between c given?)
    (run : (filter child predicate).start (⟨start, false⟩, s) = (.ok (), now, after)) :
    s.Still files after ∧ filterAhead ahead predicate after now
      (given?.map (List.filter predicate.holds)) := by
  rw [filter_start] at run
  simp only [Bool.false_eq_true, if_false] at run
  rcases began : child.start (start, s) with ⟨stop | _, c, between⟩ <;> rw [began] at run
  · cases run
  · obtain ⟨still, all⟩ := begins began
    simp only at run
    split at run <;> cases run
    exact ⟨still, rfl, given?, all, rfl⟩

theorem filterAhead_of_rewind {predicate : Predicate} {st now : Started σ} {s after : Store}
    {given? : Option (List Row)} (ready : st.ready = true)
    (begins : ∀ {c between}, child.rewind (st.child, s) = (.ok (), c, between) →
      s.Still files between ∧ ahead between c given?)
    (run : (filter child predicate).rewind (st, s) = (.ok (), now, after)) :
    s.Still files after ∧ filterAhead ahead predicate after now
      (given?.map (List.filter predicate.holds)) := by
  rw [filter_rewind] at run
  rcases rewound : child.rewind (st.child, s) with ⟨reply, c, between⟩
  rw [rewound] at run
  cases run
  obtain ⟨still, all⟩ := begins rewound
  exact ⟨still, ready, given?, all, rfl⟩

/-! ### Aggregates -/

def groupingAhead (ahead : Forecast σ) (a : Aggregation) : Forecast (GroupingState σ) :=
  fun s st rows? => st.inner.ready = true ∧
    match st.results? with
    | some left => rows? = some left
    | none => ∃ given?, ahead s st.inner.child given? ∧ rows? = given?.bind a.outcome

/-- The loop over all rows folds all rows that were to come. -/
theorem Foretells.foldRows (foretells : Foretells files child ahead)
    {fold : β → Row → Except Stop β} {bound turns : Nat} {acc result : β} {c now : σ}
    {s after : Store} {given? : Option (List Row)} (faithful : s.Faithful files)
    (before : ahead s c given?)
    (run : Step.foldRows (child.next bound) (fun acc row => MonadExcept.ofExcept (fold acc row))
      turns acc (c, s) = (.ok result, now, after)) :
    s.Still files after ∧ ∃ rows, given? = some rows ∧ rows.foldlM fold acc = .ok result := by
  induction turns generalizing c s given? acc with
  | zero => cases run
  | succ turns ih =>
      rw [Step.foldRows_succ] at run
      rcases tried : child.next bound (c, s) with ⟨stop | reply, d, between⟩ <;> rw [tried] at run
      · cases run
      obtain ⟨still, leaves⟩ := foretells.next faithful before tried
      cases reply with
      | none =>
          cases run
          exact ⟨still, [], leaves.1, rfl⟩
      | some row =>
          obtain ⟨left?, rfl, later⟩ := leaves
          simp only [Step.except_apply] at run
          cases folded : fold acc row with
          | error stop =>
              rw [folded] at run
              cases run
          | ok acc =>
              rw [folded] at run
              obtain ⟨more, rows, rfl, all⟩ := ih still.faithful later run
              refine ⟨still.trans more, row :: rows, rfl, ?_⟩
              rw [List.foldlM_cons, folded]
              exact all

theorem Foretells.compute (foretells : Foretells files child ahead) {a : Aggregation}
    {bound : Nat} {c now : σ} {s after : Store} {given? : Option (List Row)} {rows : List Row}
    (faithful : s.Faithful files) (before : ahead s c given?)
    (run : Source.compute child a bound (c, s) = (.ok rows, now, after)) :
    s.Still files after ∧ given?.bind a.outcome = some rows := by
  rw [compute_apply] at run
  rcases grouped : Step.foldRows (child.next bound)
    (fun groups row => MonadExcept.ofExcept (a.addRow groups row)) bound ∅ (c, s) with
    ⟨stop | groups, d, between⟩ <;> rw [grouped] at run
  · cases run
  obtain ⟨still, given, rfl, all⟩ := foretells.foldRows faithful before grouped
  simp only at run
  cases results : a.results groups with
  | error fault =>
      rw [results] at run
      cases run
  | ok worked =>
      rw [results] at run
      cases run
      refine ⟨still, ?_⟩
      rw [Option.bind_some, Aggregation.outcome, all]
      simp only [results]
      rfl

theorem foretells_aggregate (foretells : Foretells files child ahead) (a : Aggregation) :
    Foretells files (aggregate child a) (groupingAhead ahead a) where
  still := by
    rintro s after st rows? still ⟨ready, before⟩
    refine ⟨ready, ?_⟩
    split at before
    · exact before
    · obtain ⟨given?, before, rfl⟩ := before
      exact ⟨given?, foretells.still still before, rfl⟩
  next := by
    rintro bound st now s after rows? answer faithful ⟨ready, before⟩ run
    rw [aggregate_next, if_pos ready] at run
    rcases worked : pending child a bound st.results? (st.inner.child, s) with
      ⟨stop | rows, c, between⟩ <;> rw [worked] at run
    · cases run
    obtain ⟨still, rfl⟩ : s.Still files between ∧ rows? = some rows := by
      cases there : st.results? with
      | some left =>
          rw [there] at worked
          simp only [there] at before
          cases worked
          exact ⟨.refl faithful, before⟩
      | none =>
          rw [there] at worked
          simp only [there] at before
          obtain ⟨given?, before, rfl⟩ := before
          exact foretells.compute faithful before worked
    cases run
    refine ⟨still, ?_⟩
    cases rows with
    | nil => exact ⟨rfl, ready, rfl⟩
    | cons row rest => exact ⟨some rest, rfl, ready, rfl⟩

theorem groupingAhead_of_start {a : Aggregation} {start : σ} {schema : Schema}
    {now : GroupingState σ} {s after : Store} {given? : Option (List Row)}
    (begins : ∀ {c between}, child.start (start, s) = (.ok (), c, between) →
      s.Still files between ∧ ahead between c given?)
    (run : (aggregate child a).start (⟨⟨start, false⟩, schema, none⟩, s) = (.ok (), now, after)) :
    s.Still files after ∧ groupingAhead ahead a after now (given?.bind a.outcome) := by
  rw [aggregate_start] at run
  simp only [Bool.false_eq_true, if_false] at run
  rcases began : child.start (start, s) with ⟨stop | _, c, between⟩ <;> rw [began] at run
  · cases run
  · obtain ⟨still, all⟩ := begins began
    simp only at run
    split at run <;> cases run
    exact ⟨still, rfl, given?, all, rfl⟩

theorem groupingAhead_of_rewind {a : Aggregation} {st now : GroupingState σ} {s after : Store}
    {given? : Option (List Row)} (ready : st.inner.ready = true)
    (begins : ∀ {c between}, child.rewind (st.inner.child, s) = (.ok (), c, between) →
      s.Still files between ∧ ahead between c given?)
    (run : (aggregate child a).rewind (st, s) = (.ok (), now, after)) :
    s.Still files after ∧ groupingAhead ahead a after now (given?.bind a.outcome) := by
  rw [aggregate_rewind] at run
  rcases rewound : child.rewind (st.inner.child, s) with ⟨stop | _, c, between⟩ <;>
    rw [rewound] at run <;> cases run
  obtain ⟨still, all⟩ := begins rewound
  exact ⟨still, ready, given?, all, rfl⟩

end Source

/-! ## Plans -/

namespace Plan

variable {s after : Store} {txn : TxnId}

def ahead (files : TableId → Option TableFile) : (p : Plan) → Source.Forecast p.State
  | .scan table => Source.scanAhead files table
  | .rows _ _ => Source.rowsAhead
  | .filter child predicate => Source.filterAhead (child.ahead files) predicate
  | .aggregate child a => Source.groupingAhead (child.ahead files) a
  | .insert _ _ | .delete _ => fun _ _ _ => False

theorem foretells (txn : TxnId) (p : Plan) :
    Source.Foretells files (p.source txn) (p.ahead files) := by
  induction p with
  | scan table => exact Source.foretells_scan
  | rows schema given => exact Source.foretells_ofRows
  | filter child predicate ih => exact Source.foretells_filter ih predicate
  | aggregate child a ih => exact Source.foretells_aggregate ih a
  | insert table child => exact ⟨fun _ before => before.elim, fun _ before => before.elim⟩
  | delete child => exact ⟨fun _ before => before.elim, fun _ before => before.elim⟩

/-- **A new plan** that is started has all its rows to answer. -/
theorem ahead_of_start {p : Plan} (readOnly : p.ReadOnly) (faithful : s.Faithful files)
    {now : p.State} (run : (p.source txn).start (p.initial, s) = (.ok (), now, after)) :
    s.Still files after ∧ p.ahead files after now (p.rows? files s) := by
  induction p generalizing after with
  | scan table => exact Source.scanAhead_of_start faithful run
  | rows schema given => exact Source.rowsAhead_of_start faithful run
  | filter child predicate ih =>
      exact Source.filterAhead_of_start (fun began => ih readOnly began) run
  | aggregate child a ih =>
      exact Source.groupingAhead_of_start (fun began => ih readOnly began) run
  | insert table child => exact readOnly.elim
  | delete child => exact readOnly.elim

/-- **A plan that is rewound** has all its rows to answer, too. -/
theorem ahead_of_rewind {p : Plan} (readOnly : p.ReadOnly) (faithful : s.Faithful files)
    {st now : p.State} (sound : (p.phases files txn).sound st) (ready : (p.phases files txn).ready st)
    (run : (p.source txn).rewind (st, s) = (.ok (), now, after)) :
    s.Still files after ∧ p.ahead files after now (p.rows? files s) := by
  induction p generalizing after with
  | scan table => exact Source.scanAhead_of_rewind faithful sound run
  | rows schema given => exact Source.rowsAhead_of_rewind faithful run
  | filter child predicate ih =>
      exact Source.filterAhead_of_rewind ready
        (fun rewound => ih readOnly sound.1 (sound.2 ready) rewound) run
  | aggregate child a ih =>
      exact Source.groupingAhead_of_rewind ready
        (fun rewound => ih readOnly sound.1.1 (sound.1.2 ready) rewound) run
  | insert table child => exact readOnly.elim
  | delete child => exact readOnly.elim

end Plan

end RowStore
