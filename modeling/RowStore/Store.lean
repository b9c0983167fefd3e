/-
# RowStore.Store -- the whole state of a store, and computations on it

A `Store` holds the files, the catalog, the page locks, the pool of resident pages
and the counter of transaction ids.  An `Action` is a computation on some state that
answers or stops; either way it keeps what it did up to there.  It stops on a fault,
on a plan that is misused, or because a lock would have to be waited for.  `zoom`
lets an action on a part run on the whole.  `bind_apply` says how two computations
follow each other, and `bind_cases` takes a finished run of both apart.
-/
import RowStore.Catalog
import RowStore.Disk
import RowStore.Lock.Table
import RowStore.PageFile
import RowStore.Pool
import RowStore.Settings

namespace RowStore

set_option autoImplicit false

/-! ## Computations -/

/-- A use of a plan that it does not allow. -/
inductive PlanFault where
  | notStarted
  | aggregateColumn (index : Nat)
  | groupColumn (index : Nat)
deriving DecidableEq, Repr

def PlanFault.message : PlanFault → String
  | .notStarted => "Executor not initialized. Call init() first."
  | .aggregateColumn index => s!"Aggregate column index {index} is out of bounds"
  | .groupColumn index => s!"GROUP BY column index {index} is out of bounds"

/-- Why a computation ended without an answer. -/
inductive Stop where
  | fault (cause : Fault)
  | plan (cause : PlanFault)
  /-- The lock is held by others and has to be waited for. -/
  | blocked (txn : TxnId) (request : LockRequest)
  /-- A row has no such column. -/
  | missingColumn (index : Nat)
  /-- The bound on the number of steps was too small. -/
  | exhausted
deriving DecidableEq, Repr

def Stop.message : Stop → String
  | .fault cause => cause.message
  | .plan cause => cause.message
  | .blocked txn request =>
      s!"{txn.text} waiting for {request.mode.name} on {request.page.text}"
  | .missingColumn index => s!"no column {index}"
  | .exhausted => "too many steps"

/-- A computation on a state that answers or stops, keeping the state either way. -/
abbrev Action (σ α : Type) := ExceptT Stop (StateM σ) α

namespace Action

variable {σ τ α : Type}

def fail (cause : Fault) : Action σ α := throw (.fault cause)

/-- The answer of a pure computation, or its fault. -/
def ofExcept : Except Fault α → Action σ α
  | .ok a => pure a
  | .error cause => fail cause

/-- Run an action on a part of the state. -/
def zoom (part : τ → σ) (put : σ → τ → τ) (action : Action σ α) : Action τ α := fun whole =>
  let (answer, after) := action (part whole)
  (answer, put after whole)

/-! ### How a computation runs -/

theorem pure_apply (a : α) (s : σ) : (pure a : Action σ α) s = (.ok a, s) := rfl

theorem throw_apply (stop : Stop) (s : σ) : (throw stop : Action σ α) s = (.error stop, s) := rfl

theorem get_apply (s : σ) : (get : Action σ σ) s = (.ok s, s) := rfl

theorem set_apply (s after : σ) : (set after : Action σ PUnit) s = (.ok ⟨⟩, after) := rfl

theorem modify_apply (change : σ → σ) (s : σ) :
    (modify change : Action σ PUnit) s = (.ok ⟨⟩, change s) := rfl

/-- The second computation starts where the first ended, and does not start when the
first stopped. -/
theorem bind_apply {β : Type} (first : Action σ α) (next : α → Action σ β) (s : σ) :
    (first >>= next) s =
      match first s with
      | (.ok a, after) => next a after
      | (.error stop, after) => (.error stop, after) := by
  show (ExceptT.bind first next : Action σ β) s = _
  simp only [ExceptT.bind, ExceptT.mk, ExceptT.bindCont, bind, StateT.bind]
  rcases first s with ⟨_ | _, _⟩ <;> rfl

/-- A computation in two parts stopped in the first or ran through both. -/
theorem bind_cases {β : Type} {first : Action σ α} {next : α → Action σ β} {s after : σ}
    {answer : Except Stop β} (run : (first >>= next) s = (answer, after)) :
    (∃ stop, first s = (.error stop, after) ∧ answer = .error stop) ∨
      ∃ a mid, first s = (.ok a, mid) ∧ next a mid = (answer, after) := by
  rw [bind_apply] at run
  rcases ended : first s with ⟨stop | a, mid⟩ <;> rw [ended] at run
  · cases run
    exact Or.inl ⟨stop, rfl, rfl⟩
  · exact Or.inr ⟨a, mid, rfl, run⟩

theorem ofExcept_apply (r : Except Fault α) (s : σ) :
    (ofExcept r : Action σ α) s = (r.mapError Stop.fault, s) := by
  cases r <;> rfl

end Action

/-! ## The store -/

structure Store where
  settings : Settings
  disk : Disk
  catalog : Catalog
  locks : LockTable
  pool : Pool
  counter : TxnCounter

namespace Store

/-- A store without tables over these files. -/
def openOn (settings : Settings) (disk : Disk) : Except Fault Store :=
  match settings.validate with
  | .ok () => .ok ⟨settings, disk, .empty, .empty, .new settings.poolPages, .start⟩
  | .error fault => .error fault

/-- The pages of a table file as they lie on disk. -/
def pageFile (s : Store) (file : TableFile) : PageFile :=
  ⟨file.pageSize, s.disk.content file.path⟩

def pageCount (s : Store) (file : TableFile) : Nat := (s.pageFile file).pageCount

def setPageFile (s : Store) (file : TableFile) (pages : PageFile) : Store :=
  { s with disk := s.disk.write file.path pages.content }

/-- How the pool is shown. -/
def describePool (s : Store) : String :=
  s!"BufferPool \x7b capacity: {s.settings.poolPages}, page_size: {s.settings.pageSize} \x7d"

end Store

/-- A computation on the store. -/
abbrev StoreAction (α : Type) := Action Store α

namespace StoreAction

variable {α : Type}

/-- A look at the store that can fail. -/
def query (look : Store → Except Fault α) : StoreAction α := fun s => Action.ofExcept (look s) s

def tableFile (table : TableId) : StoreAction TableFile := query fun s => s.catalog.file table

def modifyPool (change : Pool → Pool) : StoreAction Unit :=
  modify fun s => { s with pool := change s.pool }

end StoreAction

end RowStore
