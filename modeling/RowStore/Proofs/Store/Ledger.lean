/-
# RowStore.Proofs.Store.Ledger -- what the tables should hold

The specification of the store knows no pages, locks or frames.  A `Ledger` has the
committed contents of all tables, a map from row ids to values, and for every
transaction the edits it has made since it began.  A transaction sees the committed
contents with its own edits applied to them (`view`).  When it ends, its edits are
applied to the committed contents or thrown away (`finish`).

A commit does not happen at once in the store: pages are written one by one.
`settle` is that commit page by page, and leaves the view of the transaction as it is
(`view_settle`).
-/
import RowStore.Schema

namespace RowStore

set_option autoImplicit false

/-- The rows of all tables by their ids. -/
abbrev Contents := RecordId → Option (List Value)

/-- One successful change of a row. -/
inductive Edit where
  | insert (id : RecordId) (values : List Value)
  | delete (id : RecordId)
deriving DecidableEq, Repr

namespace Edit

def id : Edit → RecordId
  | .insert id _ => id
  | .delete id => id

/-- What the row is afterwards. -/
def entry : Edit → Option (List Value)
  | .insert _ values => some values
  | .delete _ => none

def apply (e : Edit) (c : Contents) : Contents := fun id => if id = e.id then e.entry else c id

/-- Apply edits in the order in which they were made. -/
def applyAll (edits : List Edit) (c : Contents) : Contents := edits.foldl (fun c e => e.apply c) c

variable {edits : List Edit} {c : Contents} {id : RecordId}

theorem applyAll_snoc (edits : List Edit) (e : Edit) (c : Contents) :
    applyAll (edits ++ [e]) c = e.apply (applyAll edits c) := by
  simp [applyAll]

/-- What an edit does to its page. -/
theorem apply_page {e : Edit} {page : PageId} (own : e.id.page = page) (c : Contents) (slot : Nat) :
    e.apply c ⟨page, slot⟩ = if slot = e.id.slot then e.entry else c ⟨page, slot⟩ := by
  have row : (⟨page, slot⟩ : RecordId) = e.id ↔ slot = e.id.slot := by
    constructor
    · intro same
      rw [← same]
    · rintro rfl
      rw [← own]
  simp only [apply, row]

theorem apply_elsewhere {e : Edit} {page : PageId} (apart : page ≠ e.id.page) (c : Contents)
    (slot : Nat) : e.apply c ⟨page, slot⟩ = c ⟨page, slot⟩ := by
  apply if_neg
  intro same
  rw [← same] at apart
  exact apart rfl

/-- What becomes of a row depends on what it was and on nothing else. -/
theorem applyAll_congr (edits : List Edit) {d : Contents} (same : c id = d id) :
    applyAll edits c id = applyAll edits d id := by
  induction edits generalizing c d with
  | nil => exact same
  | cons e rest ih =>
      refine ih ?_
      simp only [apply, same]

theorem applyAll_of_untouched (untouched : ∀ e ∈ edits, e.id ≠ id) : applyAll edits c id = c id := by
  induction edits generalizing c with
  | nil => rfl
  | cons e rest ih =>
      have apart := untouched e List.mem_cons_self
      have later := ih (c := e.apply c) fun f member => untouched f (List.mem_cons_of_mem _ member)
      exact later.trans (if_neg (Ne.symm apart))

/-- Leaving out edits of other rows changes nothing for a row. -/
theorem applyAll_filter (keep : Edit → Bool) (kept : ∀ e ∈ edits, e.id = id → keep e = true) :
    applyAll (edits.filter keep) c id = applyAll edits c id := by
  induction edits generalizing c with
  | nil => rfl
  | cons e rest ih =>
      have later := fun d => @ih d fun f member => kept f (List.mem_cons_of_mem _ member)
      cases stays : keep e with
      | true =>
          rw [List.filter_cons_of_pos stays]
          exact later _
      | false =>
          rw [List.filter_cons_of_neg (by simp [stays])]
          have apart : e.id ≠ id := by
            intro same
            rw [kept e List.mem_cons_self same] at stays
            cases stays
          refine (later c).trans (applyAll_congr rest ?_)
          exact (if_neg (Ne.symm apart)).symm

end Edit

structure Ledger where
  committed : Contents
  /-- The edits of a transaction since it began, the oldest first. -/
  pending : TxnId → List Edit

namespace Ledger

def empty : Ledger := ⟨fun _ => none, fun _ => []⟩

variable (ℓ : Ledger) (txn : TxnId)

/-- What the transaction sees. -/
def view : Contents := Edit.applyAll (ℓ.pending txn) ℓ.committed

/-- The transaction has made an edit. -/
def note (e : Edit) : Ledger :=
  { ℓ with pending := fun t => if t = txn then ℓ.pending t ++ [e] else ℓ.pending t }

/-- The transaction has ended, its edits are kept or dropped. -/
def finish (keep : Bool) : Ledger :=
  ⟨if keep then ℓ.view txn else ℓ.committed, fun t => if t = txn then [] else ℓ.pending t⟩

/-- The edits of the transaction on one page are committed. -/
def settle (page : PageId) : Ledger :=
  ⟨fun id => if id.page = page then ℓ.view txn id else ℓ.committed id,
    fun t => if t = txn then (ℓ.pending t).filter fun e => decide (e.id.page ≠ page)
      else ℓ.pending t⟩

/-! ## Views -/

theorem view_note (e : Edit) : (ℓ.note txn e).view txn = e.apply (ℓ.view txn) := by
  simp [view, note, Edit.applyAll_snoc]

theorem view_note_ne (e : Edit) {other : TxnId} (apart : other ≠ txn) :
    (ℓ.note txn e).view other = ℓ.view other := by
  simp [view, note, apart]

/-- Committing page by page changes nothing for the transaction itself. -/
theorem view_settle (page : PageId) : (ℓ.settle txn page).view txn = ℓ.view txn := by
  funext id
  unfold view settle
  simp only [if_true]
  by_cases here : id.page = page
  · rw [Edit.applyAll_of_untouched]
    · simp [here, view]
    · intro e member same
      have elsewhere := (List.mem_filter.1 member).2
      simp [same, here] at elsewhere
  · rw [Edit.applyAll_filter]
    · exact Edit.applyAll_congr _ (by simp [here])
    · intro e _ same
      simp [same, here]

/-- Other transactions see nothing new elsewhere. -/
theorem view_settle_ne (page : PageId) {other : TxnId} (apart : other ≠ txn) {id : RecordId}
    (elsewhere : id.page ≠ page) : (ℓ.settle txn page).view other id = ℓ.view other id := by
  unfold view settle
  simp only [apart, if_false]
  exact Edit.applyAll_congr _ (by simp [elsewhere])

/-! ## Endings -/

/-- A transaction whose edits are all settled may be taken for committed. -/
theorem eq_finish_of_settled {ℓ settled : Ledger} {txn : TxnId}
    (view : settled.view txn = ℓ.view txn) (none : settled.pending txn = [])
    (others : ∀ other, other ≠ txn → settled.pending other = ℓ.pending other) :
    settled = ℓ.finish txn true := by
  have committed : settled.committed = ℓ.view txn := by
    rw [← view, Ledger.view, none]
    rfl
  have pending : settled.pending = fun t => if t = txn then [] else ℓ.pending t := by
    funext t
    by_cases own : t = txn
    · rw [if_pos own, own, none]
    · rw [if_neg own, others t own]
  obtain ⟨c, p⟩ := settled
  simp only at committed pending
  rw [committed, pending]
  rfl

theorem view_rollback_ne {other : TxnId} (apart : other ≠ txn) :
    (ℓ.finish txn false).view other = ℓ.view other := by
  simp [view, finish, apart]

end Ledger

end RowStore
