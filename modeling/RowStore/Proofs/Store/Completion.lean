/-
# RowStore.Proofs.Store.Completion -- ending a transaction, as steps

In a store in order a transaction always ends.  A commit flushes its pages one after
the other until none carries its mark; a rollback drops them; both then release its
locks (`complete_commit`, `complete_rollback`).
-/
import RowStore.Proofs.Store.Calls
import RowStore.Proofs.Store.Order
import RowStore.Store.Completion

namespace RowStore

set_option autoImplicit false

open Relation

namespace StoreAction

open Store RowStore.Action

variable {txn : TxnId} {s after : Store}

/-! ## Writing pages back -/

theorem writeBack_flush (ok : s.Orderly) {index : Nat} {frame : Frame}
    (occupied : s.pool.frame? index = some frame) (marked : frame.page.mark = some txn) :
    ∃ after, writeBack index s = (.ok (), after) ∧ Flush txn s after ∧
      ∀ other, after.pool.frame? other =
        if other = index then some { frame with page := frame.page.withMark none }
        else s.pool.frame? other := by
  have there := ok.pool.resident?_eq_some.2 ⟨index, occupied, rfl⟩
  have named := ok.pool.named index frame occupied
  obtain ⟨file, registered, -, size, -⟩ := ok.belongs frame.id frame there
  have own := (ok.tables _ file registered).1
  have dirty : frame.page.isDirty = true := by simp [Page.isDirty, marked]
  have written : s.writeToDisk file frame.page =
      .ok (s.putImage file frame.id.number frame.page.image) := by
    rw [writeToDisk_eq (by rw [named, own]) size, named]
  refine ⟨s.flushed file index frame, ?_, .page occupied marked registered, fun other => ?_⟩
  · have looked : tableFile frame.page.id.table s = (.ok file, s) := by
      rw [tableFile, query_apply, named, registered]
      rfl
    unfold writeBack
    rw [bind_apply, get_apply]
    simp only [occupied, dirty, if_true]
    rw [bind_apply, looked]
    simp only
    rw [bind_apply, query_apply, written]
    rfl
  · show (s.pool.setPage index (frame.page.withMark none)).frame? other = _
    unfold Pool.setPage
    simp only [occupied]
    exact Pool.frame?_refill occupied _ other

theorem writeBack_idle {index : Nat}
    (idle : ∀ frame, s.pool.frame? index = some frame → frame.page.mark = none) :
    writeBack index s = (.ok (), s) := by
  unfold writeBack
  rw [bind_apply, get_apply]
  simp only
  cases occupied : s.pool.frame? index with
  | none => rfl
  | some frame =>
      have clean : frame.page.isDirty = false := by simp [Page.isDirty, idle frame occupied]
      simp only [clean, Bool.false_eq_true, if_false]
      rfl

section

variable {I : Store → Prop} {R : Store → Store → Prop} (step : ∀ s index frame, I s →
  s.pool.frame? index = some frame → frame.page.mark = some txn →
    (∃ stop, writeBack index s = (.error stop, s)) ∨
      ∃ after, writeBack index s = (.ok (), after) ∧ I after ∧ R s after ∧
        ∀ other, after.pool.frame? other =
          if other = index then some { frame with page := frame.page.withMark none }
          else s.pool.frame? other)

include step

/-- Frames are written back one after the other, none of which holds changes of another
transaction.  This ends at a page that is refused, or none of the frames is marked any more. -/
theorem forM_writeBack {listed : List (Nat × Frame)} {answer : Except Stop Unit} (holds : I s)
    (own : ∀ e ∈ listed, ∀ frame, s.pool.frame? e.1 = some frame →
      frame.page.mark = none ∨ frame.page.mark = some txn)
    (run : (forM listed fun e => writeBack e.1 : StoreAction Unit) s = (answer, after)) :
    I after ∧ ReflTransGen R s after ∧
      ((∃ stop index frame, answer = .error stop ∧ after.pool.frame? index = some frame ∧
          frame.page.mark = some txn ∧ writeBack index after = (.error stop, after)) ∨
        answer = .ok () ∧ ∀ index frame, after.pool.frame? index = some frame →
          frame.page.mark = some txn →
            s.pool.frame? index = some frame ∧ index ∉ listed.map Prod.fst) := by
  induction listed generalizing s with
  | nil =>
      cases run
      exact ⟨holds, .refl, Or.inr ⟨rfl, fun index frame found _ => ⟨found, by simp⟩⟩⟩
  | cons e rest ih =>
      rw [List.forM_cons] at run
      by_cases carries : ∃ frame, s.pool.frame? e.1 = some frame ∧ frame.page.mark = some txn
      · obtain ⟨frame, occupied, marked⟩ := carries
        rcases step s e.1 frame holds occupied marked with
          ⟨stop, refused⟩ | ⟨mid, written, kept, related, frames⟩
        · rw [bind_apply, refused] at run
          cases run
          exact ⟨holds, .refl, Or.inl ⟨stop, e.1, frame, rfl, occupied, marked, refused⟩⟩
        · rw [bind_apply, written] at run
          have clean : ∀ f ∈ rest, ∀ held, mid.pool.frame? f.1 = some held →
              held.page.mark = none ∨ held.page.mark = some txn := by
            intro f member held found
            rw [frames] at found
            split at found
            · cases found
              exact Or.inl rfl
            · exact own f (List.mem_cons_of_mem _ member) held found
          obtain ⟨last, more, ended⟩ := ih kept clean run
          refine ⟨last, .head related more, ended.imp id fun ⟨done, left⟩ => ⟨done, ?_⟩⟩
          intro index held found still
          obtain ⟨before, unlisted⟩ := left index held found still
          rw [frames] at before
          split at before
          · cases before
            cases still
          · rename_i apart
            exact ⟨before, by simp [apart, unlisted]⟩
      · have idle : ∀ frame, s.pool.frame? e.1 = some frame → frame.page.mark = none := by
          intro frame found
          rcases own e List.mem_cons_self frame found with clean | marked
          · exact clean
          · exact absurd ⟨frame, found, marked⟩ carries
        rw [bind_apply, writeBack_idle idle] at run
        obtain ⟨last, more, ended⟩ :=
          ih holds (fun f member => own f (List.mem_cons_of_mem _ member)) run
        refine ⟨last, more, ended.imp id fun ⟨done, left⟩ => ⟨done, ?_⟩⟩
        intro index held found still
        obtain ⟨before, unlisted⟩ := left index held found still
        have apart : index ≠ e.1 := fun same => carries ⟨held, same ▸ before, still⟩
        exact ⟨before, by simp [apart, unlisted]⟩

end

/-- The frames that a transaction has changed hold no changes of another. -/
theorem own_of_dirtiedBy {e : Nat × Frame} (member : e ∈ s.pool.dirtiedBy txn) (frame : Frame)
    (found : s.pool.frame? e.1 = some frame) :
    frame.page.mark = none ∨ frame.page.mark = some txn := by
  obtain ⟨index, held⟩ := e
  obtain ⟨occupied, marked⟩ := Pool.mem_dirtiedBy.1 member
  rw [occupied] at found
  cases found
  exact Or.inr marked

/-- No page is marked any more once all frames with a mark have been written back. -/
theorem unmarked_of_left (ok : after.pool.Consistent)
    (left : ∀ index frame, after.pool.frame? index = some frame → frame.page.mark = some txn →
      s.pool.frame? index = some frame ∧ index ∉ (s.pool.dirtiedBy txn).map Prod.fst)
    (id : PageId) (frame : Frame) (there : after.pool.resident? id = some frame) :
    frame.page.mark ≠ some txn := by
  intro marked
  obtain ⟨index, found, -⟩ := ok.resident?_eq_some.1 there
  obtain ⟨before, unlisted⟩ := left index frame found marked
  exact unlisted (List.mem_map.2 ⟨(index, frame), Pool.mem_dirtiedBy.2 ⟨before, marked⟩, rfl⟩)

theorem flushChangesOf_spec (txn : TxnId) (ok : s.Orderly) :
    ∃ after, flushChangesOf txn s = (.ok (), after) ∧ ReflTransGen (Flush txn) s after ∧
      ∀ id frame, after.pool.resident? id = some frame → frame.page.mark ≠ some txn := by
  rcases run : (forM (s.pool.dirtiedBy txn) fun e => writeBack e.1 : StoreAction Unit) s with
    ⟨answer, after⟩
  obtain ⟨orderly, flushes, ⟨stop, index, frame, -, occupied, marked, refused⟩ | ⟨rfl, left⟩⟩ :=
    forM_writeBack (I := Store.Orderly) (R := Flush txn)
      (fun s index frame ok occupied marked =>
        have ⟨after, written, flush, frames⟩ := writeBack_flush ok occupied marked
        Or.inr ⟨after, written, ok.flush flush, flush, frames⟩)
      ok (fun _ member => own_of_dirtiedBy member) run
  · -- In a store in order no page is refused.
    obtain ⟨_, written, -⟩ := writeBack_flush orderly occupied marked
    rw [refused] at written
    cases written
  · refine ⟨after, ?_, flushes, unmarked_of_left orderly.pool left⟩
    unfold flushChangesOf
    rw [bind_apply, get_apply]
    exact run

/-! ## Flushing for anyone -/

theorem writeBack_spec (ok : s.Orderly) (index : Nat) :
    ∃ after, writeBack index s = (.ok (), after) ∧ s.Flushes after := by
  by_cases carries : ∃ frame owner, s.pool.frame? index = some frame ∧ frame.page.mark = some owner
  · obtain ⟨frame, owner, occupied, marked⟩ := carries
    obtain ⟨after, written, flush, -⟩ := writeBack_flush ok occupied marked
    exact ⟨after, written, .single ⟨owner, flush⟩⟩
  · refine ⟨s, writeBack_idle fun frame occupied => ?_, .refl⟩
    cases marked : frame.page.mark with
    | none => rfl
    | some owner => exact absurd ⟨frame, owner, occupied, marked⟩ carries

theorem forM_writeBack_spec (listed : List (Nat × Frame)) (ok : s.Orderly) :
    ∃ after, (forM listed fun e => writeBack e.1 : StoreAction Unit) s = (.ok (), after) ∧
      s.Flushes after := by
  induction listed generalizing s with
  | nil => exact ⟨s, rfl, .refl⟩
  | cons e rest ih =>
      obtain ⟨mid, written, first⟩ := writeBack_spec ok e.1
      obtain ⟨after, later, more⟩ := ih (ok.anyFlushes first)
      refine ⟨after, ?_, first.trans more⟩
      rw [List.forM_cons, bind_apply, written]
      exact later

/-- **A flush** writes changed pages back and does nothing else. -/
theorem flush_spec (ok : s.Orderly) : ∃ after, flush s = (.ok (), after) ∧ s.Flushes after := by
  unfold flush
  rw [bind_apply, get_apply]
  exact forM_writeBack_spec _ ok

/-- **Flushing a page** is a look at it, and then its changes are written back. -/
theorem flushPage_spec (ok : s.Orderly) (id : PageId) (txn : TxnId) :
    ∃ mid after, flushPage id s = (.ok (), after) ∧ s.Reads txn mid ∧ mid.Flushes after := by
  have looked : s.Reads txn { s with pool := (s.pool.lookup id).2 } :=
    ⟨walks_of_eq_pool (ok.pool.lookup id) (Pool.capacity_lookup _ _) (Pool.resident?_lookup _ _), rfl⟩
  unfold flushPage
  rw [bind_apply, lookup_apply]
  cases s.pool.resident? id with
  | none => exact ⟨_, _, rfl, looked, .refl⟩
  | some frame =>
      simp only
      rw [bind_apply, get_apply]
      simp only
      cases (s.pool.lookup id).2.directory.get? id with
      | none => exact ⟨_, _, rfl, looked, .refl⟩
      | some index =>
          obtain ⟨after, written, flushes⟩ := writeBack_spec (ok.walks looked.walk) index
          exact ⟨_, after, written, looked, flushes⟩

/-! ## Commit and rollback -/

/-- **A commit** ends with the pages of the transaction on disk and its locks released. -/
theorem complete_commit (txn : TxnId) (ok : s.Orderly) :
    ∃ mid, complete txn true s =
        (.ok (), { mid with locks := (mid.locks.releaseAll txn).2 }) ∧
      ReflTransGen (Flush txn) s mid ∧
      ∀ id frame, mid.pool.resident? id = some frame → frame.page.mark ≠ some txn := by
  obtain ⟨mid, ended, flushes, clean⟩ := flushChangesOf_spec txn ok
  refine ⟨mid, ?_, flushes, clean⟩
  unfold complete releaseAll
  simp only [if_true]
  rw [bind_apply, ended]
  rfl

/-- **A rollback** ends with the pages of the transaction dropped and its locks released. -/
theorem complete_rollback (txn : TxnId) (ok : s.Orderly) :
    ∃ pool, complete txn false s =
        (.ok (), { s with pool, locks := (s.locks.releaseAll txn).2 }) ∧
      pool.Consistent ∧ ∀ id, pool.resident? id =
        (s.pool.resident? id).filter fun frame => decide (frame.page.mark ≠ some txn) := by
  obtain ⟨consistent, residents⟩ := ok.pool.foldl_remove_dirtiedBy txn rfl
  exact ⟨_, rfl, consistent, residents⟩

/-- What a client asks for: a commit that cannot be carried out becomes a rollback, and the
client is told why. -/
theorem commit_apply (txn : TxnId) (s : Store) :
    commit txn s =
      match complete txn true s with
      | (.ok (), after) => (.ok (), after)
      | (.error stop, mid) => (.error stop, (rollback txn mid).2) := by
  show (ExceptT.tryCatch (complete txn true) _ : StoreAction Unit) s = _
  simp only [ExceptT.tryCatch, ExceptT.mk, bind, StateT.bind]
  rcases complete txn true s with ⟨stop | ⟨⟩, mid⟩ <;> rfl

theorem commit_of_complete (ended : complete txn true s = (.ok (), after)) :
    commit txn s = (.ok (), after) := by
  rw [commit_apply, ended]

theorem Orderly.complete (ok : s.Orderly) (txn : TxnId) (keep : Bool) :
    ∃ after, StoreAction.complete txn keep s = (.ok (), after) ∧ after.Orderly := by
  cases keep with
  | true =>
      obtain ⟨mid, ended, flushes, clean⟩ := complete_commit txn ok
      exact ⟨_, ended, (ok.flushes flushes).releaseAll clean⟩
  | false =>
      obtain ⟨pool, ended, consistent, residents⟩ := complete_rollback txn ok
      have kept : ∀ id frame, pool.resident? id = some frame →
          s.pool.resident? id = some frame ∧ frame.page.mark ≠ some txn := by
        intro id frame there
        rw [residents] at there
        obtain ⟨before, unmarked⟩ := Option.filter_eq_some_iff.1 there
        exact ⟨before, by simpa using unmarked⟩
      have dropped := ok.drop consistent fun id frame there => (kept id frame there).1
      exact ⟨_, ended, dropped.releaseAll fun id frame there => (kept id frame there).2⟩

end StoreAction

end RowStore
