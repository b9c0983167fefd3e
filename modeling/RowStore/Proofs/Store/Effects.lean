/-
# RowStore.Proofs.Store.Effects -- what a call of a transaction is made of

Whatever a transaction asks for, and whether or not it gets it, the store is changed by
five kinds of effects only (`Effect`): a move, the exchange of a page that it has to
itself, a changed page written back, its changed pages dropped, its locks released.  An
invariant of the store is proved for these and then holds through every call
(`effects_carryOut`).  Runs interleave whole calls.  A call that has to wait for a lock ends
there, and what it did until then stays.

A disk can fail in the middle of a call.  `Broken` is what a call may have done until
then, in steps: it has read pages, an insert has appended pages to a file of which it has
locked every page, a commit has written some of its pages.  What is reachable from a
prepared store by calls, broken calls, flushes and discarded pages is in order.
-/
import RowStore.Proofs.Store.Isolation
import RowStore.Proofs.Store.Prepared

namespace RowStore

set_option autoImplicit false

open Relation

namespace Store

/-- One effect that a transaction can have. -/
inductive Effect (txn : TxnId) : Store → Store → Prop where
  | move {s after : Store} (move : Move txn s after) : Effect txn s after
  | edit {s after : Store} {frame : Frame} {page : Page}
      (there : s.pool.resident? frame.id = some frame)
      (held : s.locks.heldMode txn frame.id = some .exclusive)
      (schema : page.schema = frame.page.schema)
      (size : page.image.size = frame.page.image.size) (sound : page.Sound)
      (replaces : s.Replaces after { frame with page := page.withMark (some txn) }) :
      Effect txn s after
  | flush {s after : Store} (flush : Flush txn s after) : Effect txn s after
  | drop (s : Store) {pool : Pool} (consistent : pool.Consistent)
      (residents : ∀ id, pool.resident? id =
        (s.pool.resident? id).filter fun frame => decide (frame.page.mark ≠ some txn)) :
      Effect txn s { s with pool }
  | release (s : Store)
      (clean : ∀ id frame, s.pool.resident? id = some frame → frame.page.mark ≠ some txn) :
      Effect txn s { s with locks := (s.locks.releaseAll txn).2 }

/-- Finitely many effects. -/
abbrev Effects (txn : TxnId) (s after : Store) : Prop := ReflTransGen (Effect txn) s after

variable {txn : TxnId} {s after : Store}

theorem Orderly.effect (ok : s.Orderly) (effect : Effect txn s after) : after.Orderly := by
  cases effect with
  | move move => exact ok.move move
  | edit there held schema size sound replaces =>
      refine ok.replaces there replaces schema size (sound.withMark _) fun owner marked => ?_
      cases marked
      exact held
  | flush flush => exact ok.flush flush
  | drop consistent residents =>
      refine ok.drop consistent fun id frame there => ?_
      rw [residents] at there
      exact (Option.filter_eq_some_iff.1 there).1
  | release clean => exact ok.releaseAll clean

/-! ## Calls -/

theorem Walks.effects (walk : s.Walks txn after) : s.Effects txn after :=
  walk.lift id fun _ _ move => .move move

theorem Edits.effects {frame : Frame} {page : Page} {slot : Nat} {entry : Option (List Value)}
    (edits : Edits txn s after frame (page.withMark (some txn)))
    (alters : frame.page.Alters page slot entry) : s.Effects txn after := by
  obtain ⟨mid, walk, there, held, replaces⟩ := edits
  exact (Walks.effects walk).tail
    (.edit there held alters.schema alters.size alters.sound replaces)

theorem effects_flushes (flushes : ReflTransGen (Flush txn) s after) : s.Effects txn after :=
  flushes.lift id fun _ _ flush => .flush flush

theorem effects_complete (ok : s.Orderly) (txn : TxnId) (keep : Bool) :
    s.Effects txn (StoreAction.complete txn keep s).2 := by
  cases keep with
  | true =>
      obtain ⟨mid, ended, flushes, clean⟩ := StoreAction.complete_commit txn ok
      rw [ended]
      exact (effects_flushes flushes).tail (.release mid clean)
  | false =>
      obtain ⟨pool, ended, consistent, residents⟩ := StoreAction.complete_rollback txn ok
      rw [ended]
      refine (ReflTransGen.single (.drop s consistent residents)).tail (.release _ ?_)
      intro id frame there
      simp only [residents] at there
      simpa using (Option.filter_eq_some_iff.1 there).2

/-- The store after a call, whatever the call has answered. -/
def carryOut (s : Store) (txn : TxnId) : Call → Store
  | .insert table values => (StoreAction.insertRow txn table values s).2
  | .delete row => (StoreAction.deleteRow txn row s).2
  | .scan table => (StoreAction.scan txn table s).2
  | .read page mode => (StoreAction.readPage txn page mode s).2
  | .complete keep => (StoreAction.complete txn keep s).2

theorem store_step (r : Recorded) (txn : TxnId) (call : Call) :
    (r.step txn call).store = r.store.carryOut txn call := by
  cases call with
  | insert table values =>
      simp only [Recorded.step, carryOut]
      rcases StoreAction.insertRow txn table values r.store with ⟨_ | _, after⟩ <;> rfl
  | delete row =>
      simp only [Recorded.step, carryOut]
      rcases StoreAction.deleteRow txn row r.store with ⟨_ | _, after⟩ <;> cases row.id? <;> rfl
  | scan table => rfl
  | read page mode => rfl
  | complete keep =>
      simp only [Recorded.step, carryOut]
      rcases StoreAction.complete txn keep r.store with ⟨_ | _, after⟩ <;> rfl

theorem effects_worked {r after : Recorded} (worked : Recorded.Worked txn r after) :
    r.store.Effects txn after.store := by
  cases worked with
  | walk walk => exact Walks.effects walk
  | edit edits own alters => exact Edits.effects edits alters

/-- **Every call** is made of effects of its transaction. -/
theorem effects_carryOut (ok : s.Orderly) (txn : TxnId) (call : Call) :
    s.Effects txn (s.carryOut txn call) := by
  by_cases ends : ∃ keep, call = .complete keep
  · obtain ⟨keep, rfl⟩ := ends
    exact effects_complete ok txn keep
  · -- What is recorded beside the store does not matter.
    have worked := Recorded.worked_step (r := ⟨s, .empty⟩) ok txn fun keep same => ends ⟨keep, same⟩
    have effects := effects_worked worked
    rw [store_step] at effects
    exact effects

/-! ## Calls that the disk fails -/

/-- A step of a call of the transaction that the disk breaks off before its answer. -/
inductive Broken (txn : TxnId) (s : Store) : Call → Store → Prop where
  | reached {call : Call} {after : Store} (reads : s.Reads txn after) : Broken txn s call after
  | appended {table : TableId} {values : List Value} {file : TableFile}
      (registered : s.catalog.file table = .ok file) (owns : s.Owns txn file) :
      Broken txn s (.insert table values) (s.grown file)
  | written {after : Store} (flush : Flush txn s after) : Broken txn s (.complete true) after

theorem Broken.effects {call : Call} (broken : Broken txn s call after) : s.Effects txn after := by
  cases broken with
  | reached reads => exact Walks.effects reads.walk
  | appended registered owns => exact .single (.move (.grow s registered owns))
  | written flush => exact .single (.flush flush)

/-! ## Reachable stores -/

/-- What calls of any transactions, broken calls, flushes and discarded pages can make of a
prepared store. -/
inductive Reachable : Store → Prop where
  | prepared {s : Store} (prepared : s.Prepared) : Reachable s
  | called {s : Store} (before : Reachable s) (txn : TxnId) (call : Call) :
      Reachable (s.carryOut txn call)
  | broken {s after : Store} {txn : TxnId} {call : Call} (before : Reachable s)
      (broken : Broken txn s call after) : Reachable after
  | flushedPage {s : Store} (before : Reachable s) (id : PageId) :
      Reachable (StoreAction.flushPage id s).2
  | flushedChanges {s : Store} (before : Reachable s) (txn : TxnId) :
      Reachable (StoreAction.flushChangesOf txn s).2
  | flushed {s : Store} (before : Reachable s) : Reachable (StoreAction.flush s).2
  | discarded {s : Store} (before : Reachable s) (id : PageId) :
      Reachable (StoreAction.discardPage id s).2

/-- The pool after a page was discarded. -/
theorem discardPage_spec (ok : s.Orderly) (id : PageId) :
    ∃ pool, StoreAction.discardPage id s = (.ok (), { s with pool }) ∧ pool.Consistent ∧
      ∀ other frame, pool.resident? other = some frame → s.pool.resident? other = some frame := by
  obtain ⟨consistent, residents⟩ := ok.pool.remove id
  refine ⟨s.pool.remove id, rfl, consistent, fun other frame there => ?_⟩
  rw [residents] at there
  split at there
  · cases there
  · exact there

/-- Whatever the effects of transactions keep, and flushes by anyone and the loss of pages
keep as well, holds of every reachable store. -/
theorem Reachable.induct {Holds : Store → Prop} (start : ∀ s, s.Prepared → Holds s)
    (effect : ∀ txn s after, s.Orderly → Effect txn s after → Holds s → Holds after)
    (drop : ∀ s : Store, ∀ pool : Pool, pool.Consistent → (∀ id frame,
      pool.resident? id = some frame → s.pool.resident? id = some frame) →
      Holds s → Holds { s with pool })
    {s : Store} (reachable : s.Reachable) : s.Orderly ∧ Holds s := by
  have through : ∀ txn s after, s.Effects txn after → s.Orderly ∧ Holds s →
      after.Orderly ∧ Holds after := by
    intro txn s after effects both
    induction effects with
    | refl => exact both
    | tail _ step ih => exact ⟨ih.1.effect step, effect _ _ _ ih.1 step ih.2⟩
  have flushes : ∀ s after, s.Flushes after → s.Orderly ∧ Holds s →
      after.Orderly ∧ Holds after := by
    intro s after flushes both
    induction flushes with
    | refl => exact both
    | tail _ flush ih =>
        obtain ⟨owner, written⟩ := flush
        exact through owner _ _ (.single (.flush written)) ih
  induction reachable with
  | prepared prepared => exact ⟨prepared.untouched.orderly, start _ prepared⟩
  | called _ txn call ih => exact through txn _ _ (effects_carryOut ih.1 txn call) ih
  | broken _ broken ih => exact through _ _ _ broken.effects ih
  | flushedPage _ id ih =>
      obtain ⟨mid, after, ended, looked, written⟩ := StoreAction.flushPage_spec ih.1 id ⟨0⟩
      rw [ended]
      exact flushes _ _ written (through ⟨0⟩ _ _ (Walks.effects looked.walk) ih)
  | flushedChanges _ txn ih =>
      obtain ⟨after, ended, written, -⟩ := StoreAction.flushChangesOf_spec txn ih.1
      rw [ended]
      exact through txn _ _ (effects_flushes written) ih
  | flushed _ ih =>
      obtain ⟨after, ended, written⟩ := StoreAction.flush_spec ih.1
      rw [ended]
      exact flushes _ _ written ih
  | discarded _ id ih =>
      obtain ⟨pool, ended, consistent, fewer⟩ := discardPage_spec ih.1 id
      rw [ended]
      exact ⟨ih.1.drop consistent fewer, drop _ _ consistent fewer ih.2⟩

theorem Reachable.orderly (reachable : s.Reachable) : s.Orderly :=
  (reachable.induct (fun _ _ => trivial) (fun _ _ _ _ _ _ => trivial) fun _ _ _ _ _ => trivial :
    s.Orderly ∧ True).1

end Store

/-! ## Recorded runs -/

namespace Recorded

/-- Every recorded run leads to a reachable store. -/
theorem reachable_run {s : Store} (fresh : s.Fresh) (calls : List (TxnId × Call)) :
    (run s calls).store.Reachable := by
  induction calls using List.reverseRecOn with
  | nil => exact .prepared fresh.prepared
  | append_singleton calls call ih =>
      rw [run_snoc, Store.store_step]
      exact ih.called call.1 call.2

end Recorded

end RowStore
