/-
# RowStore.Query.Plan -- trees of sources

A plan is a tree of operators over tables and given rows.  `Plan.State` is the type
of the state that its source runs on and `Plan.source` the source itself; both
follow the tree.  A `Running` plan is a plan with the state it has reached.
-/
import RowStore.Query.Aggregate
import RowStore.Query.Change

namespace RowStore

set_option autoImplicit false

inductive Plan where
  | scan (table : TableId)
  | rows (schema : Schema) (given : List (List Value))
  | filter (child : Plan) (predicate : Predicate)
  | insert (table : TableId) (child : Plan)
  | delete (child : Plan)
  | aggregate (child : Plan) (aggregation : Aggregation)
deriving Repr

namespace Plan

/-- The state of a plan's source. -/
def State : Plan → Type
  | .scan _ => Source.ScanState
  | .rows _ _ => List (List Value)
  | .filter child _ => Source.Started child.State
  | .insert _ child => Source.ChangeState child.State
  | .delete child => Source.ChangeState child.State
  | .aggregate child _ => Source.GroupingState child.State

/-- The state before the start. -/
def initial : (p : Plan) → p.State
  | .scan _ => ⟨none, .empty⟩
  | .rows _ given => given
  | .filter child _ => ⟨child.initial, false⟩
  | .insert _ child => ⟨⟨child.initial, false⟩, false⟩
  | .delete child => ⟨⟨child.initial, false⟩, false⟩
  | .aggregate child _ => ⟨⟨child.initial, false⟩, .empty, none⟩

/-- The stream of rows that a plan describes, for a transaction. -/
def source (txn : TxnId) : (p : Plan) → Source p.State
  | .scan table => Source.scan txn table
  | .rows schema given => Source.ofRows schema given
  | .filter child predicate => Source.filter (child.source txn) predicate
  | .insert table child => Source.insert txn table (child.source txn)
  | .delete child => Source.delete txn (child.source txn)
  | .aggregate child aggregation => Source.aggregate (child.source txn) aggregation

/-- The number of rows that the plan itself gives. -/
def givenRows : Plan → Nat
  | .scan _ => 0
  | .rows _ given => given.length
  | .filter child _ | .insert _ child | .delete child | .aggregate child _ => child.givenRows

/-- More rows than any operator of the plan takes from its child in one go.  A plan that only
reads never gets there (`Running.never_exhausted`). -/
def rowBound (p : Plan) (s : Store) : Nat := s.rowBound + p.givenRows + 1

end Plan

/-- A plan in the course of its run. -/
structure Running where
  plan : Plan
  txn : TxnId
  state : plan.State

namespace Running

variable {α : Type}

def new (txn : TxnId) (plan : Plan) : Running := ⟨plan, txn, plan.initial⟩

def schema (r : Running) : Schema := (r.plan.source r.txn).schema r.state

/-- Run a step of the plan's source, with a bound that suffices. -/
def perform (step : {σ : Type} → Source σ → Nat → Step σ α) : Step Running α :=
  fun (running, store) =>
    let source := running.plan.source running.txn
    let (answer, state, after) :=
      step source (running.plan.rowBound store) (running.state, store)
    (answer, { running with state }, after)

def start : Step Running Unit := perform fun source _ => source.start

def next : Step Running (Option Row) := perform fun source bound => source.next bound

def rewind : Step Running Unit := perform fun source _ => source.rewind

/-- Start the plan and take all its rows. -/
def collect : Step Running (List Row) := perform fun source bound => source.collect bound

end Running

end RowStore
