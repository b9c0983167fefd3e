/-
# RowStore.Lock.Mode -- the two strengths of a page lock

Readers take a shared lock and writers an exclusive one.  Two locks of different
transactions may stand on one page exactly when both are shared.
-/

namespace RowStore

set_option autoImplicit false

inductive LockMode where
  | shared
  | exclusive
deriving DecidableEq, Repr, Inhabited

namespace LockMode

def name : LockMode → String
  | .shared => "Shared"
  | .exclusive => "Exclusive"

/-- Whether locks of these modes may be held side by side by two transactions. -/
def compatible : LockMode → LockMode → Bool
  | .shared, .shared => true
  | _, _ => false

theorem compatible_iff {m n : LockMode} : m.compatible n = true ↔ m = .shared ∧ n = .shared := by
  cases m <;> cases n <;> simp [compatible]

/-- Whether holding `held` already serves a request for `wanted`. -/
def covers (held wanted : LockMode) : Bool := held = .exclusive || wanted = .shared

end LockMode

end RowStore
