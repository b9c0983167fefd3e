/-
# RowStore.Identity -- what names a table, a page, a row and a transaction

A table is named by a 32-bit id, a page by its table and its number, a row by its
page and its slot.  Pages are ordered by table and then by number, rows by page
and then by slot: the order in which a scan meets them.  Transactions carry
64-bit ids that a `TxnCounter` hands out from one upwards.
-/

namespace RowStore

set_option autoImplicit false

abbrev TableId := UInt32

/-! ## Pages -/

/-- One page of one table. -/
structure PageId where
  table : TableId
  number : Nat
deriving DecidableEq, Repr, Inhabited

namespace PageId

/-- Pages are ordered by table, then by number. -/
instance : LT PageId :=
  ⟨fun p q => p.table < q.table ∨ p.table = q.table ∧ p.number < q.number⟩

instance : LE PageId := ⟨fun p q => p < q ∨ p = q⟩

instance (p q : PageId) : Decidable (p < q) :=
  inferInstanceAs (Decidable (p.table < q.table ∨ p.table = q.table ∧ p.number < q.number))

instance (p q : PageId) : Decidable (p ≤ q) :=
  inferInstanceAs (Decidable (p < q ∨ p = q))

/-- A page is written as its table id and its number around a colon. -/
def text (p : PageId) : String := s!"{p.table}:{p.number}"

/-- Pages in ascending order. -/
def sort (ps : List PageId) : List PageId := ps.mergeSort fun p q => decide (p ≤ q)

end PageId

/-! ## Rows -/

/-- One slot of one page. -/
structure RecordId where
  page : PageId
  slot : Nat
deriving DecidableEq, Repr, Inhabited

namespace RecordId

/-- Rows are ordered by page, then by slot. -/
instance : LT RecordId :=
  ⟨fun a b => a.page < b.page ∨ a.page = b.page ∧ a.slot < b.slot⟩

instance : LE RecordId := ⟨fun a b => a < b ∨ a = b⟩

instance (a b : RecordId) : Decidable (a < b) :=
  inferInstanceAs (Decidable (a.page < b.page ∨ a.page = b.page ∧ a.slot < b.slot))

instance (a b : RecordId) : Decidable (a ≤ b) :=
  inferInstanceAs (Decidable (a < b ∨ a = b))

/-- Rows in ascending order. -/
def sort (rs : List RecordId) : List RecordId := rs.mergeSort fun a b => decide (a ≤ b)

end RecordId

/-! ## Transactions -/

structure TxnId where
  value : UInt64
deriving DecidableEq, Repr, Inhabited

namespace TxnId

def text (t : TxnId) : String := s!"Txn{t.value}"

end TxnId

/-- Hands out transaction ids; `upcoming` is the next one. -/
structure TxnCounter where
  upcoming : UInt64
deriving DecidableEq, Repr

namespace TxnCounter

/-- The first transaction is number one. -/
def start : TxnCounter := ⟨1⟩

def issue (c : TxnCounter) : TxnId × TxnCounter := (⟨c.upcoming⟩, ⟨c.upcoming + 1⟩)

/-- The last id handed out, or zero before the first. -/
def latest (c : TxnCounter) : TxnId := ⟨if c.upcoming = 0 then 0 else c.upcoming - 1⟩

/-- Until the ids run out, the last one handed out is the one that `issue` has just answered. -/
theorem latest_issue {c : TxnCounter} (more : c.upcoming + 1 ≠ 0) : c.issue.2.latest = c.issue.1 := by
  simp [issue, latest, more]

end TxnCounter

end RowStore
