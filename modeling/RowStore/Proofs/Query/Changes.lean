/-
# RowStore.Proofs.Query.Changes -- what a change does with the rows of its child

A change takes a row of its child, changes the store for it, and takes the next one, so the
child goes on in a store that is changed already.  `Sweep` is this loop without its bound and its
count.  A change that is collected makes one sweep and answers how many rows it had
(`collect_change_iff`).  What a sweep leaves is proved by induction over it, for each kind of
change and child.
-/
import RowStore.Proofs.Query.Runs

namespace RowStore

set_option autoImplicit false

open RowStore.Action

namespace Source

variable {σ : Type} {next : Step σ (Option Row)} {edit : Row → StoreAction Unit}
  {child : Source σ} {prepare : Step σ Unit} {bound : Nat} {st now : σ} {s after : Store}

/-- The rows of a stream are taken one after the other, and for each the store is changed before
the next one is taken.  No call fails. -/
inductive Sweep (next : Step σ (Option Row)) (edit : Row → StoreAction Unit) :
    σ → Store → List Row → σ → Store → Prop where
  | done {st now : σ} {s after : Store} (last : next (st, s) = (.ok none, now, after)) :
      Sweep next edit st s [] now after
  | row {st mid now : σ} {s between changed after : Store} {row : Row} {rows : List Row}
      (taken : next (st, s) = (.ok (some row), mid, between))
      (edited : edit row between = (.ok (), changed))
      (rest : Sweep next edit mid changed rows now after) :
      Sweep next edit st s (row :: rows) now after

/-! ## The loop -/

/-- One turn of the loop over the rows of the child. -/
theorem changes_succ (turns count : Nat) :
    Step.foldRows next (fun count row => do
        Step.onStore (edit row)
        return count + 1) (turns + 1) count (st, s) =
      match next (st, s) with
      | (.error stop, now) => (.error stop, now)
      | (.ok none, now) => (.ok count, now)
      | (.ok (some row), mid, between) =>
          match edit row between with
          | (.error stop, changed) => (.error stop, mid, changed)
          | (.ok (), changed) =>
              Step.foldRows next (fun count row => do
                Step.onStore (edit row)
                return count + 1) turns (count + 1) (mid, changed) := by
  rw [Step.foldRows_succ]
  rcases next (st, s) with ⟨_ | _ | row, mid, between⟩
  · rfl
  · rfl
  · simp only [bind_apply, Step.onStore_apply]
    rcases edit row between with ⟨_ | _, changed⟩ <;> rfl

theorem sweep_of_changes {turns count total : Nat}
    (run : Step.foldRows next (fun count row => do
        Step.onStore (edit row)
        return count + 1) turns count (st, s) = (.ok total, now, after)) :
    ∃ rows, Sweep next edit st s rows now after ∧ total = count + rows.length ∧
      rows.length < turns := by
  induction turns generalizing st s count with
  | zero => cases run
  | succ turns ih =>
      rw [changes_succ] at run
      rcases taken : next (st, s) with ⟨_ | _ | row, mid, between⟩ <;> rw [taken] at run
      · cases run
      · cases run
        exact ⟨[], .done taken, rfl, Nat.succ_pos _⟩
      · simp only at run
        rcases edited : edit row between with ⟨_ | ⟨⟩, changed⟩ <;> rw [edited] at run
        · cases run
        obtain ⟨rows, sweep, counted, few⟩ := ih run
        refine ⟨row :: rows, .row taken edited sweep, ?_, Nat.succ_lt_succ few⟩
        rw [counted, List.length_cons]
        omega

theorem changes_of_sweep {rows : List Row} (sweep : Sweep next edit st s rows now after)
    {turns : Nat} (count : Nat) (few : rows.length < turns) :
    Step.foldRows next (fun count row => do
        Step.onStore (edit row)
        return count + 1) turns count (st, s) = (.ok (count + rows.length), now, after) := by
  induction sweep generalizing turns count with
  | done last =>
      obtain ⟨turns, rfl⟩ := Nat.exists_eq_add_one.2 few
      rw [changes_succ, last]
      rfl
  | @row _ _ _ _ _ _ _ _ rows taken edited _ ih =>
      obtain ⟨turns, rfl⟩ := Nat.exists_eq_add_one.2 (Nat.zero_lt_of_lt few)
      rw [changes_succ, taken]
      simp only
      rw [edited]
      simp only
      rw [ih (count + 1) (Nat.lt_of_succ_lt_succ few), List.length_cons]
      have same : count + 1 + rows.length = count + (rows.length + 1) := by omega
      rw [same]

/-! ## A change that is collected -/

theorem collect_apply (source : Source σ) (bound : Nat) (st : σ) (s : Store) :
    source.collect bound (st, s) =
      match source.start (st, s) with
      | (.error stop, w) => (.error stop, w)
      | (.ok (), w) =>
          match Step.foldRows (source.next bound) (fun acc row => return row :: acc) bound [] w with
          | (.error stop, w) => (.error stop, w)
          | (.ok taken, w) => (.ok taken.reverse, w) := by
  unfold Source.collect Step.collectRows
  rw [bind_apply]
  rcases source.start (st, s) with ⟨_ | ⟨⟩, w⟩
  · rfl
  · dsimp only
    rw [bind_apply]
    rcases Step.foldRows (source.next bound) (fun acc row => return row :: acc) bound [] w with
      ⟨_ | _, w⟩ <;> rfl

/-- The answer of a change: how many rows it had. -/
def countRow (rows : List Row) : Row := Row.fresh [.int (Int32.ofNat rows.length)]

/-- **A change that is collected** prepares its child, sweeps over its rows and answers one row
that counts them. -/
theorem collect_change_iff {answers : List Row} {ended : ChangeState σ} (room : 1 < bound) :
    (change child prepare edit).collect bound (⟨⟨st, false⟩, false⟩, s) = (.ok answers, ended, after) ↔
      ∃ mid between now rows, prepare (st, s) = (.ok (), mid, between) ∧
        Sweep (child.next bound) edit mid between rows now after ∧ rows.length < bound ∧
          answers = [countRow rows] ∧ ended = ⟨⟨now, true⟩, true⟩ := by
  obtain ⟨turns, rfl⟩ := Nat.exists_eq_add_of_lt room
  rw [collect_apply, change_start]
  simp only [Bool.false_eq_true, if_false]
  rcases prepared : prepare (st, s) with ⟨stop | ⟨⟩, mid, between⟩
  · constructor
    · intro run
      cases run
    · rintro ⟨_, _, _, _, failed, -⟩
      cases failed
  simp only
  rw [show 1 + turns + 1 = turns + 1 + 1 by omega, Step.foldRows_succ, change_next]
  simp only [if_true, Bool.false_eq_true, if_false]
  rcases changed : changeAll child edit (turns + 1 + 1) (mid, between) with
    ⟨stop | count, now, last⟩
  · constructor
    · intro run
      cases run
    · rintro ⟨_, _, _, rows, same, sweep, few, -⟩
      cases same
      cases changed.symm.trans (changes_of_sweep sweep 0 few)
  · simp only [pure_apply]
    rw [Step.foldRows_succ, change_next]
    simp only [if_true]
    constructor
    · intro run
      cases run
      obtain ⟨rows, sweep, counted, few⟩ := sweep_of_changes changed
      rw [Nat.zero_add] at counted
      exact ⟨mid, between, now, rows, rfl, sweep, few, by rw [counted]; rfl, rfl⟩
    · rintro ⟨_, _, _, rows, same, sweep, few, rfl, rfl⟩
      cases same
      cases changed.symm.trans (changes_of_sweep sweep 0 few)
      rw [Nat.zero_add]
      rfl

end Source

/-- The bound of a plan lets a change answer its row, and then answer none. -/
theorem Plan.one_lt_rowBound (p : Plan) (s : Store) : 1 < p.rowBound s := by
  have some : 0 < s.rowBound := Nat.succ_pos _
  unfold Plan.rowBound
  omega

end RowStore
