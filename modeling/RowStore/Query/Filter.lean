/-
# RowStore.Query.Filter -- the rows of a source that satisfy a predicate
-/
import RowStore.Query.Source

namespace RowStore

set_option autoImplicit false

namespace Source

/-- A state with a child and whether the source was started. -/
structure Started (σ : Type) where
  child : σ
  ready : Bool

namespace Started

variable {σ α : Type}

def onChild (step : Step σ α) : Step (Started σ) α :=
  Step.onPart Started.child (fun after s => { s with child := after }) step

/-- Run the preparation once; it counts when it succeeds. -/
def once (prepare : Step (Started σ) Unit) : Step (Started σ) Unit := do
  if (← Step.own).ready then return
  prepare
  Step.modifyOwn fun s => { s with ready := true }

def ensureReady : Step (Started σ) Unit := do
  if !(← Step.own).ready then throw (.plan .notStarted)

end Started

variable {σ : Type}

/-- Take rows from the child until one satisfies the predicate. -/
def firstHolding (child : Step σ (Option Row)) (predicate : Predicate) :
    Nat → Step σ (Option Row)
  | 0 => throw .exhausted
  | bound + 1 => do
      match ← child with
      | none => return none
      | some row => if predicate.holds row then return some row
                    else firstHolding child predicate bound

/-- The rows of the child that satisfy the predicate, whose column has to be one of
the child's. -/
def filter (child : Source σ) (predicate : Predicate) : Source (Started σ) where
  schema s := child.schema s.child
  start := Started.once do
    Started.onChild child.start
    let columns := (child.schema (← Step.own).child).arity
    if columns ≤ predicate.column then
      Step.fail (.badShape (.predicateColumn predicate columns))
  next bound := do
    Started.ensureReady
    Started.onChild (firstHolding (child.next bound) predicate bound)
  rewind := Started.onChild child.rewind

end Source

end RowStore
