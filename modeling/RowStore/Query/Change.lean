/-
# RowStore.Query.Change -- sources that insert or delete the rows of their child

Each takes all rows of its child at the first call, changes the table row by row and
answers one row that holds the number of rows.  A rewound change is made again.
-/
import RowStore.Query.Filter

namespace RowStore

set_option autoImplicit false

namespace Source

/-- Besides the child, whether the change was made and its count answered. -/
structure ChangeState (σ : Type) where
  inner : Started σ
  done : Bool

/-- The single column of the answer of a change. -/
def countSchema : Schema := ⟨[⟨"count", .int⟩]⟩

namespace ChangeState

variable {σ α : Type}

def onInner (step : Step (Started σ) α) : Step (ChangeState σ) α :=
  Step.onPart ChangeState.inner (fun after s => { s with inner := after }) step

end ChangeState

variable {σ : Type}

/-- Apply the change to every row of the child and count the rows. -/
def changeAll (child : Source σ) (change : Row → StoreAction Unit) (bound : Nat) :
    Step σ Nat :=
  Step.foldRows (child.next bound)
    (fun count row => do
      Step.onStore (change row)
      return count + 1)
    bound 0

/-- A source that changes the store once for every row of its child. -/
def change (child : Source σ) (prepare : Step σ Unit) (change : Row → StoreAction Unit) :
    Source (ChangeState σ) where
  schema _ := countSchema
  start := ChangeState.onInner (Started.once (Started.onChild prepare))
  next bound := do
    ChangeState.onInner Started.ensureReady
    if (← Step.own).done then return none
    let count ← ChangeState.onInner (Started.onChild (changeAll child change bound))
    Step.modifyOwn fun s => { s with done := true }
    return some (Row.fresh [.int (Int32.ofNat count)])
  rewind := do
    ChangeState.onInner (Started.onChild child.rewind)
    Step.modifyOwn fun s => { s with done := false }

/-- Insert the rows of the child, whose columns must have the table's types. -/
def insert (txn : TxnId) (table : TableId) (child : Source σ) : Source (ChangeState σ) :=
  change child
    (do
      child.start
      let expected := (← Step.onStore (StoreAction.tableFile table)).schema.types
      let given := (child.schema (← Step.own)).types
      if given ≠ expected then Step.fail (.badShape (.insertTypes given table expected)))
    fun row => do
      let _ ← StoreAction.insertRow txn table row.values

/-- Delete the stored rows that the child answers. -/
def delete (txn : TxnId) (child : Source σ) : Source (ChangeState σ) :=
  change child child.start fun row => StoreAction.deleteRow txn row

end Source

end RowStore
