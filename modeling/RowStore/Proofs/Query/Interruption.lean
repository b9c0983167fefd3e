/-
# RowStore.Proofs.Query.Interruption -- calls that fail half-way

A change and an aggregate take all rows of their child in one call.  When the call fails, what it
has come to is forgotten, the count or the groups, but the child does not go back.  So the next
call goes on with the rows that are left as if there had been no others.

A `Trip` is what one loop over a child has taken, whether it came to an end or not.  With it, a
count that is answered in the end is compared with what was changed since the start
(`Tried.counts_last_call`), and the answers of an aggregate with the rows that were taken since then
(`Asked.answers_kept`).
-/
import RowStore.Proofs.Query.Insertion

namespace RowStore

set_option autoImplicit false

open RowStore.Action

/-- The rows that a loop has taken of a stream: those that it has used, and the one at which it
has stopped, if it did so at a row. -/
structure Trip where
  used : List Row
  refused? : Option Row

def Trip.rows (t : Trip) : List Row := t.used ++ t.refused?.toList

namespace Step

variable {σ β : Type} {next : Step σ (Option Row)} {fold : β → Row → Step σ β}

/-- What the loop over the rows of a stream takes. -/
def trip (next : Step σ (Option Row)) (fold : β → Row → Step σ β) : Nat → β → σ × Store → Trip
  | 0, _, _ => ⟨[], none⟩
  | turns + 1, acc, w =>
      match next w with
      | (.ok (some row), mid) =>
          match fold acc row mid with
          | (.ok more, now) =>
              let later := trip next fold turns more now
              { later with used := row :: later.used }
          | (.error _, _) => ⟨[], some row⟩
      | _ => ⟨[], none⟩

/-- What every turn keeps of the rows that were used holds of all of them at the end, and a loop
that comes to its end has used all rows that it has taken. -/
theorem holds_of_trip {turns : Nat} {acc result : β} {w now : σ × Store}
    (run : foldRows next fold turns acc w = (.ok result, now)) (Holds : List Row → β → Prop)
    (turn : ∀ rows acc more row w now, Holds rows acc → fold acc row w = (.ok more, now) →
      Holds (rows ++ [row]) more)
    (front : List Row) (holds : Holds front acc) :
    (trip next fold turns acc w).refused? = none ∧
      Holds (front ++ (trip next fold turns acc w).used) result := by
  induction turns generalizing front acc w with
  | zero => cases run
  | succ turns ih =>
      obtain ⟨st, s⟩ := w
      rw [foldRows_succ] at run
      unfold trip
      rcases taken : next (st, s) with ⟨_ | _ | row, mid⟩ <;> rw [taken] at run
      · cases run
      · cases run
        rw [List.append_nil]
        exact ⟨rfl, holds⟩
      · dsimp only at run ⊢
        rcases used : fold acc row mid with ⟨_ | more, later⟩ <;> rw [used] at run
        · cases run
        · obtain ⟨all, still⟩ := ih run _ (turn _ _ _ _ _ _ holds used)
          rw [List.append_assoc] at still
          exact ⟨all, still⟩

end Step

namespace Source

variable {σ : Type} {child : Source σ}

/-! ## Changes -/

section

variable {prepare : Step σ Unit} {edit : Row → StoreAction Unit} {bound : Nat}
  {st now : ChangeState σ} {s after : Store} {produced changed : List Row} {row : Row}

/-- The rows that one call of a change takes of its child, and makes its change for. -/
def changeTrip (child : Source σ) (edit : Row → StoreAction Unit) (bound : Nat)
    (st : ChangeState σ) (s : Store) : Trip :=
  Step.trip (child.next bound) (fun count row => do
    Step.onStore (edit row)
    return count + 1) bound 0 (st.inner.child, s)

/-- What the calls of a change have come to that have failed since it was started or rewound:
the rows that the child has answered, and those that were changed.  Anything may happen to the
store between two calls. -/
inductive Tried (child : Source σ) (prepare : Step σ Unit) (edit : Row → StoreAction Unit) :
    ChangeState σ → Store → List Row → List Row → Prop where
  | started {c : σ} {now : ChangeState σ} {s after : Store}
      (run : (change child prepare edit).start (⟨⟨c, false⟩, false⟩, s) = (.ok (), now, after)) :
      Tried child prepare edit now after [] []
  | rewound {st now : ChangeState σ} {s after : Store} (ready : st.inner.ready = true)
      (run : (change child prepare edit).rewind (st, s) = (.ok (), now, after)) :
      Tried child prepare edit now after [] []
  | failed {bound : Nat} {st now : ChangeState σ} {s after : Store} {produced changed : List Row}
      {stop : Stop} (before : Tried child prepare edit st s produced changed)
      (run : (change child prepare edit).next bound (st, s) = (.error stop, now, after)) :
      Tried child prepare edit now after (produced ++ (changeTrip child edit bound st s).rows)
        (changed ++ (changeTrip child edit bound st s).used)
  | meanwhile {st : ChangeState σ} {s after : Store} {produced changed : List Row}
      (before : Tried child prepare edit st s produced changed) :
      Tried child prepare edit st after produced changed

theorem Tried.sublist (tried : Tried child prepare edit st s produced changed) :
    changed.Sublist produced := by
  induction tried with
  | started | rewound => exact .refl []
  | failed _ _ ih => exact ih.append (List.sublist_append_left _ _)
  | meanwhile _ ih => exact ih

/-- A count that is answered is that of the rows which this one call has taken. -/
theorem countRow_of_next
    (run : (change child prepare edit).next bound (st, s) = (.ok (some row), now, after)) :
    (changeTrip child edit bound st s).refused? = none ∧
      row = countRow (changeTrip child edit bound st s).used := by
  rw [change_next] at run
  split at run
  · split at run
    · cases run
    · rcases counted : changeAll child edit bound (st.inner.child, s) with ⟨_ | count, c, last⟩ <;>
        rw [counted] at run
      · cases run
      · cases run
        obtain ⟨all, same⟩ : (changeTrip child edit bound st s).refused? = none ∧
            count = (changeTrip child edit bound st s).used.length := by
          refine Step.holds_of_trip counted (fun rows count => count = rows.length)
            (fun rows acc more row w now same turn => ?_) [] rfl
          simp only [bind_apply] at turn
          rcases edited : Step.onStore (edit row) w with ⟨_ | ⟨⟩, _⟩ <;> rw [edited] at turn
          · cases turn
          · cases turn
            rw [List.length_append, same]
            rfl
        exact ⟨all, by rw [same]; rfl⟩
  · cases run

theorem length_eq_of_countRow {rows others : List Row} (few : rows.length < 2 ^ 32)
    (few' : others.length < 2 ^ 32) (same : countRow rows = countRow others) :
    rows.length = others.length := by
  unfold countRow Row.fresh at same
  simp only [Row.mk.injEq, List.cons.injEq, Value.int.injEq, and_true, true_and] at same
  have images : (UInt32.ofNat rows.length).toNat = (UInt32.ofNat others.length).toNat :=
    congrArg (fun n : Int32 => n.toUInt32.toNat) same
  rwa [UInt32.toNat_ofNat_of_lt' few, UInt32.toNat_ofNat_of_lt' few'] at images

/-- **A count after calls that have failed** counts the rows of the last call only.  It counts
what was changed since the start, and that was all that the child has answered since, exactly if
no call that has failed had taken a row. -/
theorem Tried.counts_last_call (tried : Tried child prepare edit st s produced changed)
    (run : (change child prepare edit).next bound (st, s) = (.ok (some row), now, after)) :
    ∃ rows, changeTrip child edit bound st s = ⟨rows, none⟩ ∧ row = countRow rows ∧
      ((changed ++ rows).length < 2 ^ 32 →
        (row = countRow (changed ++ rows) ∧ changed ++ rows = produced ++ rows ↔
          produced = [])) := by
  obtain ⟨all, counted⟩ := countRow_of_next run
  refine ⟨(changeTrip child edit bound st s).used, ?_, counted, fun few => ⟨?_, ?_⟩⟩
  · rw [← all]
  · rintro ⟨same, whole⟩
    have fewer : (changeTrip child edit bound st s).used.length < 2 ^ 32 := by
      rw [List.length_append] at few
      omega
    have lengths := length_eq_of_countRow fewer few (counted.symm.trans same)
    rw [List.length_append] at lengths
    have none : changed = [] := List.length_eq_zero_iff.1 (by omega)
    rw [← List.append_cancel_right whole, none]
  · rintro rfl
    obtain rfl := List.sublist_nil.1 tried.sublist
    exact ⟨counted, rfl⟩

/-- A mark that is set. -/
def mark : Row := Row.fresh [.bool true]

def threeMarks : Source (List (List Value)) :=
  ofRows TableFile.marks.schema (List.replicate 3 [.bool true])

def marking : Source (ChangeState (List (List Value))) := insert ⟨2⟩ TableFile.marks.id threeMarks

/-- Another transaction has changed two pages, and there is a frame for one more. -/
def oneFrameLeft : Store :=
  (Store.twoTables.carryOut ⟨1⟩ (.insert TableFile.flags.id [.bool true])).carryOut ⟨1⟩
    (.insert TableFile.flags.id [.bool true])

def markingBegun : ChangeState (List (List Value)) × Store :=
  (marking.start (⟨⟨List.replicate 3 [.bool true], false⟩, false⟩, oneFrameLeft)).2

def markingStopped : ChangeState (List (List Value)) × Store := (marking.next 8 markingBegun).2

/-- The other transaction has committed. -/
def framesLeft : Store := markingStopped.2.carryOut ⟨1⟩ (.complete true)

/-- **A count that leaves a row out.**  Of three marks the first is stored, there is no frame for
the second, and the third is stored when the insert is called again.  It answers one, though two
marks are stored and the child has answered three. -/
theorem counts_last_mark :
    (marking.next 8 markingBegun).1 = .error (.fault .poolFull) ∧
    (∃ prepare edit, marking = change threeMarks prepare edit ∧
      Tried threeMarks prepare edit markingStopped.1 framesLeft [mark, mark] [mark]) ∧
    (marking.next 8 (markingStopped.1, framesLeft)).1 = .ok (some (countRow [mark])) ∧
    ¬ (countRow [mark] = countRow ([mark] ++ [mark]) ∧
      [mark] ++ [mark] = [mark, mark] ++ [mark]) ∧
    (StoreAction.scan ⟨2⟩ TableFile.marks.id
      (marking.next 8 (markingStopped.1, framesLeft)).2.2).1 =
        .ok [⟨some ⟨⟨TableFile.marks.id, 0⟩, 0⟩, [.bool true]⟩,
          ⟨some ⟨⟨TableFile.marks.id, 1⟩, 0⟩, [.bool true]⟩] := by
  have done : (marking.start (⟨⟨List.replicate 3 [.bool true], false⟩, false⟩, oneFrameLeft)).1 =
      .ok () := by cbv
  have failed : (marking.next 8 markingBegun).1 = .error (.fault .poolFull) := by cbv
  have answered : (marking.next 8 (markingStopped.1, framesLeft)).1 =
      .ok (some (countRow [mark])) := by cbv
  have scanned : (StoreAction.scan ⟨2⟩ TableFile.marks.id
      (marking.next 8 (markingStopped.1, framesLeft)).2.2).1 =
        .ok [⟨some ⟨⟨TableFile.marks.id, 0⟩, 0⟩, [.bool true]⟩,
          ⟨some ⟨⟨TableFile.marks.id, 1⟩, 0⟩, [.bool true]⟩] := by cbv
  obtain ⟨prepare, edit, same, half, rest⟩ : ∃ prepare edit,
      marking = change threeMarks prepare edit ∧
        changeTrip threeMarks edit 8 markingBegun.1 markingBegun.2 = ⟨[mark], some mark⟩ ∧
        changeTrip threeMarks edit 8 markingStopped.1 framesLeft = ⟨[mark], none⟩ :=
    ⟨_, _, rfl, by cbv, by cbv⟩
  have first := Prod.fst_eq_iff.1 done
  have second := Prod.fst_eq_iff.1 failed
  obtain ⟨⟨last, after⟩, third⟩ : ∃ w, marking.next 8 (markingStopped.1, framesLeft) =
      (.ok (some (countRow [mark])), w) := ⟨_, Prod.fst_eq_iff.1 answered⟩
  rw [← markingBegun, same] at first
  rw [← markingStopped, same] at second
  rw [same] at third
  have tried : Tried threeMarks prepare edit markingStopped.1 framesLeft [mark, mark] [mark] := by
    generalize markingBegun = begun at first second half
    generalize markingStopped = stopped at second
    obtain ⟨st, s⟩ := begun
    obtain ⟨stuck, left⟩ := stopped
    have before := (Tried.started first).failed second
    rw [half] at before
    exact before.meanwhile
  obtain ⟨rows, taken, -, exactly⟩ := tried.counts_last_call third
  obtain ⟨rfl, -⟩ := Trip.mk.inj (rest.symm.trans taken)
  refine ⟨failed, ⟨prepare, edit, same, tried⟩, answered, fun told => ?_, scanned⟩
  exact List.cons_ne_nil _ _ ((exactly (by decide)).1 told)

end

/-! ## Aggregates -/

section

variable {a : Aggregation} {bound : Nat} {st now : GroupingState σ} {s after : Store}
  {lost produced : List Row} {answers : List (Option Row)}

/-- The rows that one call of an aggregate takes of its child: none once there are results. -/
def aggregateTrip (child : Source σ) (a : Aggregation) (bound : Nat) (st : GroupingState σ)
    (s : Store) : Trip :=
  match st.results? with
  | some _ => ⟨[], none⟩
  | none =>
      Step.trip (child.next bound) (fun groups row => MonadExcept.ofExcept (a.addRow groups row))
        bound ∅ (st.inner.child, s)

/-- The calls of an aggregate since it was started or rewound: the rows that the child has
answered to calls that have failed, all rows that it has answered, and the answers of the calls
that have not failed.  Anything may happen to the store between two calls. -/
inductive Asked (child : Source σ) (a : Aggregation) :
    GroupingState σ → Store → List Row → List Row → List (Option Row) → Prop where
  | started {c : σ} {schema : Schema} {now : GroupingState σ} {s after : Store}
      (run : (aggregate child a).start (⟨⟨c, false⟩, schema, none⟩, s) = (.ok (), now, after)) :
      Asked child a now after [] [] []
  | rewound {st now : GroupingState σ} {s after : Store} (ready : st.inner.ready = true)
      (run : (aggregate child a).rewind (st, s) = (.ok (), now, after)) :
      Asked child a now after [] [] []
  | failed {bound : Nat} {st now : GroupingState σ} {s after : Store} {lost produced : List Row}
      {answers : List (Option Row)} {stop : Stop}
      (before : Asked child a st s lost produced answers)
      (run : (aggregate child a).next bound (st, s) = (.error stop, now, after)) :
      Asked child a now after (lost ++ (aggregateTrip child a bound st s).rows)
        (produced ++ (aggregateTrip child a bound st s).rows) answers
  | answered {bound : Nat} {st now : GroupingState σ} {s after : Store} {lost produced : List Row}
      {answers : List (Option Row)} {answer : Option Row}
      (before : Asked child a st s lost produced answers)
      (run : (aggregate child a).next bound (st, s) = (.ok answer, now, after)) :
      Asked child a now after lost (produced ++ (aggregateTrip child a bound st s).rows)
        (answers ++ [answer])
  | meanwhile {st : GroupingState σ} {s after : Store} {lost produced : List Row}
      {answers : List (Option Row)} (before : Asked child a st s lost produced answers) :
      Asked child a st after lost produced answers

/-- The results for the rows that no failed call has taken: those that were answered, and those
that are left. -/
def Owes (a : Aggregation) (lost produced : List Row) (answers : List (Option Row)) :
    Option (List Row) → Prop
  | none => produced = lost ∧ answers = []
  | some left => ∃ kept rows, produced = lost ++ kept ∧ a.outcome kept = some rows ∧
      left = rows.drop answers.length ∧
        ∀ (i : Nat) answer, answers[i]? = some answer → answer = rows[i]?

/-- One more answer is the first result that is left. -/
theorem each_snoc {rows : List Row}
    (each : ∀ (i : Nat) answer, answers[i]? = some answer → answer = rows[i]?) :
    ∀ (i : Nat) answer, (answers ++ [(rows.drop answers.length).head?])[i]? = some answer →
      answer = rows[i]? := by
  intro i answer there
  rcases Nat.lt_trichotomy i answers.length with before | rfl | behind
  · rw [List.getElem?_append_left before] at there
    exact each i answer there
  · rw [List.getElem?_concat_length, List.head?_drop] at there
    exact (Option.some.inj there).symm
  · rw [List.getElem?_append_right (Nat.le_of_lt behind)] at there
    have past : i - answers.length ≠ 0 := Nat.sub_ne_zero_of_lt behind
    simp [past] at there

theorem foldlM_snoc {rows : List Row} {groups more : Groups} {row : Row} {w last : σ × Store}
    (before : rows.foldlM a.addRow ∅ = .ok groups)
    (added : (MonadExcept.ofExcept (a.addRow groups row) : Step σ Groups) w = (.ok more, last)) :
    (rows ++ [row]).foldlM a.addRow ∅ = .ok more := by
  rw [Step.except_apply] at added
  rw [List.foldlM_append, before]
  show List.foldlM a.addRow groups [row] = _
  rw [List.foldlM_cons, (Prod.mk.inj added).1]
  rfl

/-- Results that are computed are those for the rows that the call has taken. -/
theorem outcome_of_compute {last : σ} {rows : List Row} (none : st.results? = none)
    (run : compute child a bound (st.inner.child, s) = (.ok rows, last, after)) :
    a.outcome (aggregateTrip child a bound st s).rows = some rows := by
  unfold aggregateTrip Trip.rows
  rw [none]
  rw [compute_apply] at run
  rcases folded : Step.foldRows (child.next bound)
    (fun groups row => MonadExcept.ofExcept (a.addRow groups row)) bound ∅ (st.inner.child, s) with
    ⟨_ | groups, w⟩ <;> rw [folded] at run
  · cases run
  obtain ⟨all, total⟩ := Step.holds_of_trip folded
    (fun rows groups => rows.foldlM a.addRow ∅ = .ok groups)
    (fun _ _ _ _ _ _ before added => foldlM_snoc before added) [] rfl
  rw [List.nil_append] at total
  simp only [all, Option.toList_none, List.append_nil, Aggregation.outcome, total]
  dsimp only at run
  cases found : a.results groups with
  | error fault =>
      rw [found] at run
      cases run
  | ok results =>
      rw [found] at run
      cases run
      rfl

theorem Asked.owes (asked : Asked child a st s lost produced answers) :
    st.inner.ready = true ∧ Owes a lost produced answers st.results? := by
  induction asked with
  | started run =>
      rw [aggregate_start, if_neg nofun] at run
      dsimp only at run
      split at run
      · cases run
      · split at run <;> cases run
        exact ⟨rfl, rfl, rfl⟩
  | rewound ready run =>
      rw [aggregate_rewind] at run
      split at run <;> cases run
      exact ⟨ready, rfl, rfl⟩
  | @failed bound st now s after lost produced answers stop _ run ih =>
      obtain ⟨ready, owes⟩ := ih
      rw [aggregate_next, if_pos ready] at run
      cases found : st.results? with
      | some left =>
          rw [found] at run
          cases run
      | none =>
          rw [found] at owes
          obtain ⟨rfl, rfl⟩ := owes
          split at run <;> cases run
          refine ⟨ready, ?_⟩
          show Owes a _ _ _ st.results?
          rw [found]
          exact ⟨rfl, rfl⟩
  | @answered bound st now s after lost produced answers answer _ run ih =>
      obtain ⟨ready, owes⟩ := ih
      rw [aggregate_next, if_pos ready] at run
      cases found : st.results? with
      | some left =>
          rw [found] at run owes
          obtain ⟨kept, rows, rfl, outcome, rfl, each⟩ := owes
          cases run
          refine ⟨ready, kept, rows, ?_, outcome, ?_, ?_⟩
          · simp [aggregateTrip, found, Trip.rows]
          · rw [List.tail_drop, List.length_append]
            rfl
          · exact each_snoc each
      | none =>
          rw [found] at run owes
          obtain ⟨rfl, rfl⟩ := owes
          rcases computed : pending child a bound none (st.inner.child, s) with
            ⟨_ | rows, c, last⟩ <;> rw [computed] at run <;> cases run
          exact ⟨ready, _, rows, rfl, outcome_of_compute found computed, List.drop_one.symm,
            each_snoc nofun⟩
  | meanwhile _ ih => exact ih

/-- **The answers of an aggregate** are the first results for the rows that no failed call has
taken.  They are those for all rows that the child has answered if the calls that have failed had
taken none. -/
theorem Asked.answers_kept (asked : Asked child a st s lost produced answers) :
    ∃ kept, produced = lost ++ kept ∧ ∀ (i : Nat) answer, answers[i]? = some answer →
      ∃ rows, a.outcome kept = some rows ∧ answer = rows[i]? := by
  obtain ⟨-, owes⟩ := asked.owes
  cases found : st.results? with
  | none =>
      rw [found] at owes
      obtain ⟨rfl, rfl⟩ := owes
      exact ⟨[], (List.append_nil _).symm, nofun⟩
  | some left =>
      rw [found] at owes
      obtain ⟨kept, rows, same, outcome, -, each⟩ := owes
      exact ⟨kept, same, fun i answer there => ⟨rows, outcome, each i answer there⟩⟩

def total : Aggregation := ⟨.sum, 0, none⟩

/-- Two amounts whose sum is too large. -/
def largeAmounts : List (List Value) := [[.int 2147483647], [.int 1]]

def largeTotal : Source (GroupingState (List (List Value))) :=
  aggregate (ofRows ⟨[⟨"amount", .int⟩]⟩ largeAmounts) total

/-- The call for the total has failed. -/
def totalStopped : GroupingState (List (List Value)) :=
  ⟨⟨[], true⟩, ⟨[⟨"SUM(amount)", .int⟩]⟩, none⟩

/-- **An overflow that is forgotten.**  The sum of two rows is too large, and the call for it
fails.  The next call answers that there is no row, as for a child without rows. -/
theorem answers_kept_overflow : ∃ begun ended,
    largeTotal.start (⟨⟨largeAmounts, false⟩, .empty, none⟩, Store.flags) =
      (.ok (), begun, Store.flags) ∧
    largeTotal.next 3 (begun, Store.flags) =
      (.error (.fault (.unsupported (.overflow .sum 2147483648))), totalStopped, Store.flags) ∧
    largeTotal.next 3 (totalStopped, Store.flags) = (.ok none, ended, Store.flags) ∧
    (∃ kept, largeAmounts.map Row.fresh = largeAmounts.map Row.fresh ++ kept ∧
      ∃ rows, total.outcome kept = some rows ∧ none = rows[0]?) ∧
    total.outcome (largeAmounts.map Row.fresh) = none := by
  have first : largeTotal.start (⟨⟨largeAmounts, false⟩, .empty, none⟩, Store.flags) =
      (.ok (), { totalStopped with inner.child := largeAmounts }, Store.flags) := rfl
  have second : largeTotal.next 3 ({ totalStopped with inner.child := largeAmounts }, Store.flags) =
      (.error (.fault (.unsupported (.overflow .sum 2147483648))), totalStopped, Store.flags) := rfl
  have third : largeTotal.next 3 (totalStopped, Store.flags) =
      (.ok none, { totalStopped with results? := some [] }, Store.flags) := rfl
  have asked : Asked (ofRows ⟨[⟨"amount", .int⟩]⟩ largeAmounts) total
      { totalStopped with results? := some [] } Store.flags (largeAmounts.map Row.fresh)
        (largeAmounts.map Row.fresh) [none] := ((Asked.started first).failed second).answered third
  obtain ⟨kept, same, each⟩ := asked.answers_kept
  exact ⟨_, _, first, second, third, ⟨kept, same, each 0 none rfl⟩, rfl⟩

end

end Source

end RowStore
