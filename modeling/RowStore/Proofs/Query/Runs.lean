/-
# RowStore.Proofs.Query.Runs -- plans in the course of their run

A plan may be started, pulled, rewound and collected in any order, and between two calls
anything may happen to the store that gives no table another file (`Used`).  Through all of
this it stays in its phases (`Used.inPhase`), and so its rows are rows of its schema.
-/
import RowStore.Proofs.Query.Typing
import RowStore.Proofs.Store.Mirror

namespace RowStore

set_option autoImplicit false

namespace Running

/-- What can become of a plan and of the store under it, whoever else uses the store.  The
flag says whether a start of the plan has succeeded. -/
inductive Used (files : TableId → Option TableFile) : Bool → Running → Store → Prop where
  | new {s : Store} (settled : s.Settled files) (txn : TxnId) (plan : Plan) :
      Used files false (.new txn plan) s
  | started {flag : Bool} {r now : Running} {s after : Store} {answer : Except Stop Unit}
      (before : Used files flag r s) (run : start (r, s) = (answer, now, after)) :
      Used files (flag || answer.isOk) now after
  | pulled {flag : Bool} {r now : Running} {s after : Store} {answer : Except Stop (Option Row)}
      (before : Used files flag r s) (run : next (r, s) = (answer, now, after)) :
      Used files flag now after
  | rewound {flag : Bool} {r now : Running} {s after : Store} {answer : Except Stop Unit}
      (before : Used files flag r s) (run : rewind (r, s) = (answer, now, after)) :
      Used files flag now after
  | collected {flag : Bool} {r now : Running} {s after : Store} {answer : Except Stop (List Row)}
      (before : Used files flag r s) (run : collect (r, s) = (answer, now, after)) :
      Used files (flag || answer.isOk) now after
  | meanwhile {flag : Bool} {r : Running} {s after : Store} (before : Used files flag r s)
      (step : s.Meanwhile files after) : Used files flag r after

variable {files : TableId → Option TableFile} {flag : Bool} {r now : Running} {s after : Store}

theorem perform_cases {α : Type} {step : {σ : Type} → Source σ → Nat → Step σ α}
    {answer : Except Stop α} (run : perform step (r, s) = (answer, now, after)) :
    ∃ state, now = { r with state } ∧
      step (r.plan.source r.txn) (r.plan.rowBound s) (r.state, s) = (answer, state, after) := by
  unfold perform at run
  simp only at run
  rcases stepped : step (r.plan.source r.txn) (r.plan.rowBound s) (r.state, s) with
    ⟨reply, state, store⟩
  rw [stepped] at run
  cases run
  exact ⟨state, rfl, rfl⟩

/-- The plan is in its phases, and it was started if the flag says so. -/
structure InPhase (files : TableId → Option TableFile) (flag : Bool) (r : Running) (s : Store) :
    Prop where
  sound : (r.plan.phases files r.txn).sound r.state
  steady : s.Steady files
  ready : flag → (r.plan.phases files r.txn).ready r.state

theorem InPhase.kept {source : Source r.plan.State} {state : r.plan.State} {done : Bool}
    (phase : InPhase files flag r s)
    (kept : Source.Kept files source (r.plan.phases files r.txn) r.state state after)
    (ready : done → (r.plan.phases files r.txn).ready state) :
    InPhase files (flag || done) { r with state } after := by
  refine ⟨kept.sound, kept.steady, fun on => ?_⟩
  rcases Bool.or_eq_true_iff.1 on with before | now
  · exact (kept.ready (phase.ready before)).1
  · exact ready now

theorem Used.inPhase (used : Used files flag r s) : InPhase files flag r s := by
  induction used with
  | new settled txn plan => exact ⟨plan.sound_initial txn, settled.steady, nofun⟩
  | started _ run ih =>
      obtain ⟨state, rfl, ran⟩ := perform_cases run
      obtain ⟨kept, ready⟩ := (Plan.typed _ _).start ih.sound ih.steady ran
      exact ih.kept kept ready
  | pulled _ run ih =>
      obtain ⟨state, rfl, ran⟩ := perform_cases run
      obtain ⟨kept, -⟩ := (Plan.typed _ _).next ih.sound ih.steady ran
      exact ⟨kept.sound, kept.steady, fun on => (kept.ready (ih.ready on)).1⟩
  | rewound _ run ih =>
      obtain ⟨state, rfl, ran⟩ := perform_cases run
      have kept := (Plan.typed _ _).rewind ih.sound ih.steady ran
      exact ⟨kept.sound, kept.steady, fun on => (kept.ready (ih.ready on)).1⟩
  | collected _ run ih =>
      obtain ⟨state, rfl, ran⟩ := perform_cases run
      obtain ⟨kept, ready⟩ := (Plan.typed _ _).collect ih.sound ih.steady ran
      exact ih.kept kept ready
  | meanwhile _ step ih => exact ⟨ih.sound, ih.steady.meanwhile step, ih.ready⟩

theorem used_of_start {txn : TxnId} {plan : Plan} (settled : s.Settled files)
    (done : (start (.new txn plan, s)).1.isOk = true) :
    Used files true (start (.new txn plan, s)).2.1 (start (.new txn plan, s)).2.2 := by
  rcases run : start (.new txn plan, s) with ⟨answer, now, after⟩
  rw [run] at done
  have used := (Used.new settled txn plan).started run
  rw [done] at used
  exact used

/-- **The rows of a plan that was started** are rows of its schema, which stays what it is,
and no call for a row stops because a column is missing or a value has another type than it
should have: rows are grouped and inserted without any further check.  If the plan only reads,
no call stops for want of steps either (`never_exhausted`). -/
theorem rows_of_schema (used : Used files true r s) {answer : Except Stop (Option Row)}
    (run : next (r, s) = (answer, now, after)) :
    now.schema = r.schema ∧
      (∀ row, answer = .ok (some row) → r.schema.check row.values = .ok ()) ∧
      (∀ index, answer ≠ .error (.missingColumn index)) ∧
      ∀ cause, answer ≠ .error (.fault (.badShape cause)) := by
  obtain ⟨sound, steady, ready⟩ := used.inPhase
  obtain ⟨state, rfl, ran⟩ := perform_cases run
  obtain ⟨kept, answers⟩ := (Plan.typed _ _).next sound steady ran
  have answers := answers (ready rfl)
  refine ⟨(kept.ready (ready rfl)).2, ?_, ?_, ?_⟩
  · rintro row rfl
    exact answers row rfl
  · rintro index rfl
    cases answers
  · rintro cause rfl
    cases answers

/-- The flags that are set, counted by their value. -/
def tally : Plan :=
  .aggregate (.filter (.scan TableFile.flags.id) ⟨0, .eq, .bool true⟩) ⟨.count, 0, some 0⟩

def begun : Running × Store := (start (.new ⟨2⟩ tally, Store.flagged)).2

theorem used_begun : Used Store.onlyFlags true begun.1 begun.2 := by
  have settled : Store.flagged.Settled Store.onlyFlags :=
    (Store.settled_flags.later (.called _ _ _)).later (.called _ _ _)
  have done : (start (.new ⟨2⟩ tally, Store.flagged)).1.isOk = true := by cbv
  unfold begun
  exact used_of_start settled done

theorem rows_of_schema_tally :
    (next begun).1 = .ok (some ⟨none, [.bool true, .int 1]⟩) ∧
      begun.1.schema.check [.bool true, .int 1] = .ok () ∧
      (next begun).2.1.schema = begun.1.schema := by
  have answered : (next begun).1 = .ok (some ⟨none, [.bool true, .int 1]⟩) := by cbv
  obtain ⟨same, checked, -⟩ := rows_of_schema used_begun rfl
  exact ⟨answered, checked _ answered, same⟩

end Running

end RowStore
