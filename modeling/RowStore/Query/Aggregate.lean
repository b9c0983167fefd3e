/-
# RowStore.Query.Aggregate -- one value per group of rows

A `Tally` runs over the values of a column and has what every aggregate needs: how
many there are, the sum of the integers among them and their extremes, in 64 bits.
The source takes all rows of its child at the first call, keeps one tally per value
of the grouping column in the order in which the values are first met, and then
answers one row per group.  A result that is no 32-bit integer is a fault.
-/
import RowStore.Query.Filter

namespace RowStore

set_option autoImplicit false

/-- Only counting works on columns that hold no integers. -/
def AggregateFunction.supports (op : AggregateFunction) (type : DataType) : Bool :=
  decide (type = .int) || decide (op = .count)

/-- What is known of the values of one group. -/
structure Tally where
  count : Int64
  sum : Int64
  least? : Option Int32
  greatest? : Option Int32
deriving DecidableEq, Repr, Inhabited

namespace Tally

def empty : Tally := ⟨0, 0, none, none⟩

def add (t : Tally) (v : Value) : Tally :=
  match v with
  | .int n =>
      { count := t.count + 1
        sum := t.sum + n.toInt64
        least? := some (match t.least? with | some m => min m n | none => n)
        greatest? := some (match t.greatest? with | some m => max m n | none => n) }
  | _ => { t with count := t.count + 1 }

/-- The wide result of an aggregate; an average is cut off toward zero. -/
def result (t : Tally) : AggregateFunction → Int64
  | .count => t.count
  | .sum => t.sum
  | .avg => t.sum / max t.count 1
  | .min => (t.least?.map Int32.toInt64).getD 0
  | .max => (t.greatest?.map Int32.toInt64).getD 0

/-- The result as a value, if it is a 32-bit integer. -/
def value (t : Tally) (op : AggregateFunction) : Except Fault Value :=
  let wide := (t.result op).toInt
  if Int32.minValue.toInt ≤ wide ∧ wide ≤ Int32.maxValue.toInt then
    .ok (.int (Int32.ofInt wide))
  else .error (.unsupported (.overflow op wide))

end Tally

/-- What an aggregate computes: an operation on a column, per value of another one
if there is one. -/
structure Aggregation where
  op : AggregateFunction
  column : Nat
  groupBy : Option Nat
deriving DecidableEq, Repr

/-- The tallies by group, in the order in which the groups were first met. -/
abbrev Groups := FinMap (Option Value) Tally

namespace Aggregation

/-- The columns of the answer, if the child has those that are needed. -/
def outputSchema (a : Aggregation) (child : Schema) : Except Stop Schema :=
  match child.column? a.column with
  | none => .error (.plan (.aggregateColumn a.column))
  | some column =>
      if !a.op.supports column.type then
        .error (.fault (.unsupported (.columnType a.op column.type column.name)))
      else
        let result : Column := ⟨s!"{a.op.name}({column.name})", .int⟩
        match a.groupBy with
        | none => .ok ⟨[result]⟩
        | some index =>
            match child.column? index with
            | none => .error (.plan (.groupColumn index))
            | some group => .ok ⟨[group, result]⟩

/-- The group of a row, or the column it lacks. -/
def keyOf (a : Aggregation) (row : Row) : Except Stop (Option Value) :=
  match a.groupBy with
  | none => .ok none
  | some index =>
      match row.value? index with
      | some v => .ok (some v)
      | none => .error (.missingColumn index)

/-- Add a row to the tally of its group. -/
def addRow (a : Aggregation) (groups : Groups) (row : Row) : Except Stop Groups :=
  match a.keyOf row with
  | .error stop => .error stop
  | .ok key =>
      match row.value? a.column with
      | none => .error (.missingColumn a.column)
      | some v => .ok (groups.insert key (((groups.get? key).getD .empty).add v))

/-- One row per group. -/
def results (a : Aggregation) (groups : Groups) : Except Fault (List Row) :=
  groups.entries.mapM fun (key, tally) =>
    match tally.value a.op with
    | .ok v => .ok (Row.fresh (key.toList ++ [v]))
    | .error fault => .error fault

end Aggregation

namespace Source

structure GroupingState (σ : Type) where
  inner : Started σ
  schema : Schema
  /-- The result rows still to be answered, once they are computed. -/
  results? : Option (List Row)

namespace GroupingState

variable {σ α : Type}

def onInner (step : Step (Started σ) α) : Step (GroupingState σ) α :=
  Step.onPart GroupingState.inner (fun after s => { s with inner := after }) step

end GroupingState

variable {σ : Type}

/-- Run over all rows of the child and work the results out. -/
def compute (child : Source σ) (a : Aggregation) (bound : Nat) : Step σ (List Row) := do
  let groups ← Step.foldRows (child.next bound)
    (fun groups row => MonadExcept.ofExcept (a.addRow groups row)) bound ∅
  match a.results groups with
  | .ok rows => return rows
  | .error fault => Step.fail fault

/-- The aggregate of the child's rows. -/
def aggregate (child : Source σ) (a : Aggregation) : Source (GroupingState σ) where
  schema s := s.schema
  start := do
    if (← Step.own).inner.ready then return
    GroupingState.onInner (Started.onChild child.start)
    let schema ← MonadExcept.ofExcept (a.outputSchema (child.schema (← Step.own).inner.child))
    Step.modifyOwn fun s => { s with schema, inner := { s.inner with ready := true } }
  next bound := do
    GroupingState.onInner Started.ensureReady
    let rows ←
      match (← Step.own).results? with
      | some rows => pure rows
      | none => GroupingState.onInner (Started.onChild (compute child a bound))
    match rows with
    | [] =>
        Step.modifyOwn fun s => { s with results? := some [] }
        return none
    | row :: rest =>
        Step.modifyOwn fun s => { s with results? := some rest }
        return some row
  rewind := do
    GroupingState.onInner (Started.onChild child.rewind)
    Step.modifyOwn fun s => { s with results? := none }

end Source

end RowStore
