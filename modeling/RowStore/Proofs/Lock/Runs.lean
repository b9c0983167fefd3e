/-
# RowStore.Proofs.Lock.Runs -- all that can happen in a lock room

A run is a list of calls on an empty room: attempts that do not park (`grant`) and
attempts that do (`acquire`), parked requests that go on, in any order and whether
their bell has rung or not (`resume`), and releases of one lock or of all.

Parking counts requests and drops entries that nothing needs; neither shows in the
holders or the registrations (`SameView`).  So what an attempt, a release and the
withdrawal of a registration keep, seen through these two views, holds after every
run (`run_induction`).
-/
import Mathlib.Data.List.Induction
import RowStore.Lock.Room
import RowStore.Proofs.Lock.Effects

namespace RowStore

set_option autoImplicit false

inductive LockCall where
  | grant (txn : TxnId) (r : LockRequest)
  | acquire (txn : TxnId) (r : LockRequest)
  | resume (place : Nat)
  | release (txn : TxnId) (page : PageId)
  | releaseAll (txn : TxnId)
deriving DecidableEq, Repr

namespace LockTable

/-- The same locks and the same registrations. -/
structure SameView (t after : LockTable) : Prop where
  holders : ∀ page, after.holders page = t.holders page
  waiting : ∀ txn, after.waiting.get? txn = t.waiting.get? txn

theorem SameView.refl (t : LockTable) : t.SameView t := ⟨fun _ => rfl, fun _ => rfl⟩

theorem SameView.trans {t mid after : LockTable} (first : t.SameView mid)
    (second : mid.SameView after) : t.SameView after :=
  ⟨fun page => (second.holders page).trans (first.holders page),
    fun txn => (second.waiting txn).trans (first.waiting txn)⟩

theorem sameView_sweep (t : LockTable) (page : PageId) : t.SameView (t.sweep page) :=
  ⟨fun _ => holders_sweep _ _ _, fun _ => by rw [waiting_sweep]⟩

/-- The count of the requests that are parked on a page is not part of the view. -/
theorem sameView_count {t : LockTable} {page : PageId} {entry : LockEntry}
    (found : t.pages.get? page = some entry) (waiters : Nat) :
    t.SameView { t with pages := t.pages.insert page { entry with waiters } } := by
  refine ⟨fun p => ?_, fun _ => rfl⟩
  by_cases same : p = page <;> simp [holders, same, found]

end LockTable

namespace LockRoom

open LockTable

/-- Carry out one call.  A place where no request is parked resumes nothing. -/
def step (room : LockRoom) : LockCall → LockRoom
  | .grant txn r => { room with table := (room.table.request txn r).2 }
  | .acquire txn r => (room.attempt txn r).2
  | .resume place =>
      match room.parked[place]? with
      | some p => (room.resume p).2
      | none => room
  | .release txn page => (room.release txn page).2
  | .releaseAll txn => (room.releaseAll txn).2

/-- The transaction on whose behalf a call is made. -/
def caller (room : LockRoom) : LockCall → Option TxnId
  | .grant txn _ | .acquire txn _ | .release txn _ | .releaseAll txn => some txn
  | .resume place => room.parked[place]?.map ParkedRequest.txn

/-- The room after these calls. -/
def run (calls : List LockCall) : LockRoom := calls.foldl step empty

@[simp] theorem run_nil : run [] = empty := rfl

theorem run_snoc (calls : List LockCall) (call : LockCall) :
    run (calls ++ [call]) = (run calls).step call := by
  simp [run]

/-! ## The table of a room -/

theorem sameView_park (room : LockRoom) (txn : TxnId) (r : LockRequest) :
    room.table.SameView (room.park txn r).table := by
  unfold park
  cases found : room.table.pages.get? r.page with
  | none => exact .refl _
  | some entry => exact sameView_count found _

/-- An attempt that parks does to the table what one that does not park does. -/
theorem sameView_attempt (room : LockRoom) (txn : TxnId) (r : LockRequest) :
    (room.table.request txn r).2.SameView (room.attempt txn r).2.table := by
  unfold attempt
  generalize room.table.request txn r = answer
  obtain ⟨verdict, table⟩ := answer
  cases verdict with
  | wait => exact sameView_park { room with table } txn r
  | granted => exact .refl _
  | deadlock => exact .refl _

theorem sameView_countOut (t : LockTable) (page : PageId) : t.SameView (countOut t page) := by
  unfold countOut
  cases found : t.pages.get? page with
  | none => exact .refl _
  | some entry => exact (sameView_count found _).trans (sameView_sweep _ _)

theorem table_release (room : LockRoom) (txn : TxnId) (page : PageId) :
    (room.release txn page).2.table = (room.table.release txn page).2 := by
  unfold release
  generalize room.table.release txn page = answer
  obtain ⟨released, table⟩ := answer
  cases released <;> cases room.table.pages.get? page <;> rfl

theorem table_foldl_release (pages : List PageId) (room : LockRoom) (txn : TxnId) :
    (pages.foldl (fun r page => (r.release txn page).2) room).table =
      pages.foldl (fun table page => (table.release txn page).2) room.table := by
  induction pages generalizing room with
  | nil => rfl
  | cons page rest ih => rw [List.foldl_cons, List.foldl_cons, ih, table_release]

theorem table_releaseAll (room : LockRoom) (txn : TxnId) :
    (room.releaseAll txn).2.table = (room.table.releaseAll txn).2 :=
  table_foldl_release _ _ _

/-- What one call can do to the table, up to what the views do not show: an attempt, a
release, a release of all, or nothing. -/
theorem step_cases (room : LockRoom) (call : LockCall) :
    (room.caller call = none ∧ room.step call = room) ∨
      ∃ txn, room.caller call = some txn ∧
        ((∃ t r, room.table.SameView t ∧ (t.request txn r).2.SameView (room.step call).table) ∨
          (∃ page, (room.step call).table = (room.table.release txn page).2) ∨
          (room.step call).table = (room.table.releaseAll txn).2) := by
  cases call with
  | grant txn r => exact Or.inr ⟨txn, rfl, Or.inl ⟨_, r, .refl _, .refl _⟩⟩
  | acquire txn r => exact Or.inr ⟨txn, rfl, Or.inl ⟨_, r, .refl _, sameView_attempt room txn r⟩⟩
  | release txn page => exact Or.inr ⟨txn, rfl, Or.inr (Or.inl ⟨page, table_release _ _ _⟩)⟩
  | releaseAll txn => exact Or.inr ⟨txn, rfl, Or.inr (Or.inr (table_releaseAll _ _))⟩
  | resume place =>
      cases found : room.parked[place]? with
      | none => exact Or.inl ⟨by simp [caller, found], by simp [step, found]⟩
      | some p =>
          refine Or.inr ⟨p.txn, by simp [caller, found], Or.inl ?_⟩
          refine ⟨countOut room.table p.request.page, p.request, sameView_countOut _ _, ?_⟩
          simp only [step, found]
          exact sameView_attempt ⟨countOut room.table p.request.page, room.parked.erase p⟩ _ _

/-- **Induction over runs.**  What depends on locks and registrations only, and is kept
by attempts and by releases, holds of the table after every run. -/
theorem run_induction {P : LockTable → Prop} (start : P .empty)
    (view : ∀ {t after}, SameView t after → P t → P after)
    (request : ∀ t txn r, P t → P (t.request txn r).2)
    (release : ∀ t txn page, P t → P (t.release txn page).2)
    (releaseAll : ∀ t txn, P t → P (t.releaseAll txn).2) (calls : List LockCall) :
    P (run calls).table := by
  induction calls using List.reverseRecOn with
  | nil => exact start
  | append_singleton calls call ih =>
      rw [run_snoc]
      rcases (run calls).step_cases call with
        ⟨-, same⟩ | ⟨txn, -, ⟨t, r, before, after⟩ | ⟨page, same⟩ | same⟩
      · rw [same]; exact ih
      · exact view after (request t txn r (view before ih))
      · rw [same]; exact release _ txn page ih
      · rw [same]; exact releaseAll _ txn ih

end LockRoom

end RowStore
