/-
# RowStore.Step -- computations that carry a state of their own through the store

A cursor or a running plan has a state besides the store.  A `Step` works on both
and keeps both when it stops.  `foldRows` is the one loop over a stream of rows; it
takes a bound on the number of rows, and `Store.rowBound` is one that no stream over
the store exceeds.
-/
import RowStore.Store.Rows

namespace RowStore

set_option autoImplicit false

/-- A computation on a state of type `σ` together with the store. -/
abbrev Step (σ α : Type) := Action (σ × Store) α

namespace Step

variable {σ τ α β : Type}

/-- Run an action on the store alone. -/
def onStore (action : StoreAction α) : Step σ α :=
  Action.zoom Prod.snd (fun store whole => (whole.1, store)) action

/-- Run a step of a part of the state. -/
def onPart (part : τ → σ) (put : σ → τ → τ) (step : Step σ α) : Step τ α :=
  Action.zoom (fun whole => (part whole.1, whole.2))
    (fun after whole => (put after.1 whole.1, after.2)) step

def own : Step σ σ := return (← get).1

def modifyOwn (change : σ → σ) : Step σ Unit := modify fun whole => (change whole.1, whole.2)

def fail (cause : Fault) : Step σ α := throw (.fault cause)

theorem own_apply (st : σ) (s : Store) : (own : Step σ σ) (st, s) = (.ok st, st, s) := rfl

theorem modifyOwn_apply (change : σ → σ) (st : σ) (s : Store) :
    modifyOwn change (st, s) = (.ok (), change st, s) := rfl

theorem onStore_apply (action : StoreAction α) (st : σ) (s : Store) :
    onStore action (st, s) = ((action s).1, st, (action s).2) := rfl

theorem onPart_apply (part : τ → σ) (put : σ → τ → τ) (step : Step σ α) (whole : τ) (s : Store) :
    onPart part put step (whole, s) =
      ((step (part whole, s)).1, put (step (part whole, s)).2.1 whole,
        (step (part whole, s)).2.2) := rfl

/-- Take rows until there are none, folding each into the result. -/
def foldRows (next : Step σ (Option Row)) (fold : β → Row → Step σ β) : Nat → β → Step σ β
  | 0, _ => throw .exhausted
  | bound + 1, acc => do
      match ← next with
      | none => return acc
      | some row => foldRows next fold bound (← fold acc row)

/-- All rows that are still to come. -/
def collectRows (next : Step σ (Option Row)) (bound : Nat) : Step σ (List Row) := do
  let taken ← foldRows next (fun acc row => return row :: acc) bound []
  return taken.reverse

end Step

/-- More rows than a stream over the store can have: every slot of the pages there
are, and of those that can be added before the pool is full of changed pages. -/
def Store.rowBound (s : Store) : Nat :=
  let pages := s.disk.files.values.foldr
    (fun content count => content.length / s.settings.pageSize + count) 0
  (pages + s.pool.capacity + 1) * slotLimit + 1

end RowStore
