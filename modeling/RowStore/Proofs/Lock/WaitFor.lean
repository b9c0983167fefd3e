/-
# RowStore.Proofs.Lock.WaitFor -- transactions never wait for each other in a circle

`WaitsFor a b` says that the registered request of `a` is stopped by a lock of `b`.
The relation is not stored: it is read off the registrations and the holders, so
every operation may change it.  `waitCloses_iff` says that the search before a wait
decides exactly whether the wait would close a circle.

Three laws about relations cover all operations.  Fewer edges make no circle
(`acyclic_mono`), which settles releases and answers that only withdraw a
registration.  Edges into a transaction that itself waits for nobody make no circle
(`acyclic_sink`): that is a grant, which may stop others that overtook nobody, but
whose owner has just withdrawn its registration.  Redirecting the edges of one
transaction makes no circle if none of its new ends leads back to it
(`acyclic_redirect`): that is a wait.
-/
import Mathlib.Logic.Relation
import RowStore.Proofs.Lock.Runs

namespace RowStore

set_option autoImplicit false

open Relation

/-! ## Relations without circles -/

/-- Nothing leads back to where it started. -/
def Acyclic {α : Type} (R : α → α → Prop) : Prop := ∀ a, ¬ TransGen R a a

section Circles

variable {α : Type} {R S : α → α → Prop}

theorem acyclic_mono (fewer : ∀ a b, S a b → R a b) (acyclic : Acyclic R) : Acyclic S :=
  fun a circle => acyclic a (TransGen.mono fewer _ _ circle)

theorem acyclic_sink {x : α} (old : ∀ a b, S a b → b ≠ x → R a b) (sink : ∀ b, ¬ S x b)
    (acyclic : Acyclic R) : Acyclic S := by
  have lift : ∀ {a b}, TransGen S a b → b ≠ x → TransGen R a b := by
    intro a b path
    induction path with
    | single edge => exact fun apart => .single (old _ _ edge apart)
    | tail _ edge ih =>
        intro apart
        refine .tail (ih ?_) (old _ _ edge apart)
        rintro rfl
        exact sink _ edge
  intro a circle
  refine acyclic a (lift circle ?_)
  rintro rfl
  obtain ⟨b, edge, -⟩ := TransGen.head'_iff.1 circle
  exact sink b edge

/-- A path avoids leaving from `x`, or what it does after `x` avoids it. -/
theorem path_avoids (x : α) {a target : α} (path : ReflTransGen S a target) :
    ReflTransGen (fun b c => b ≠ x ∧ S b c) a target ∨
      ∃ b, S x b ∧ ReflTransGen (fun b c => b ≠ x ∧ S b c) b target := by
  induction path using ReflTransGen.head_induction_on with
  | refl => exact Or.inl .refl
  | @head a c edge _ ih =>
      rcases ih with avoids | later
      · by_cases start : a = x
        · exact Or.inr ⟨c, start ▸ edge, avoids⟩
        · exact Or.inl (.head ⟨start, edge⟩ avoids)
      · exact Or.inr later

theorem acyclic_redirect {x : α} (old : ∀ a b, S a b → a ≠ x → R a b)
    (apart : ∀ b, S x b → ¬ ReflTransGen R b x) (acyclic : Acyclic R) : Acyclic S := by
  have lift : ∀ {a b}, ReflTransGen (fun c d => c ≠ x ∧ S c d) a b → ReflTransGen R a b :=
    fun path => ReflTransGen.mono (fun c d edge => old c d edge.2 edge.1) _ _ path
  have clear : ¬ TransGen S x x := by
    intro circle
    obtain ⟨b, edge, path⟩ := TransGen.head'_iff.1 circle
    rcases path_avoids x path with avoids | ⟨c, first, avoids⟩
    · exact apart b edge (lift avoids)
    · exact apart c first (lift avoids)
  -- A path goes through `x` or was there before.
  have split : ∀ {a b}, TransGen S a b → TransGen R a b ∨ ReflTransGen S a x ∧ TransGen S x b := by
    intro a b path
    induction path with
    | single edge =>
        by_cases start : a = x
        · subst start
          exact Or.inr ⟨.refl, .single edge⟩
        · exact Or.inl (.single (old _ _ edge start))
    | @tail m c before edge ih =>
        by_cases here : m = x
        · subst here
          exact Or.inr ⟨before.to_reflTransGen, .single edge⟩
        · rcases ih with same | ⟨into, out⟩
          · exact Or.inl (.tail same (old _ _ edge here))
          · exact Or.inr ⟨into, .tail out edge⟩
  intro a circle
  rcases split circle with same | ⟨into, out⟩
  · exact acyclic a same
  · exact clear (out.trans_left into)

end Circles

namespace LockTable

variable (t : LockTable)

/-- The request of `a` among these is stopped by a lock of `b`. -/
def Follows (pending : FinMap TxnId LockRequest) (a b : TxnId) : Prop :=
  ∃ r, pending.get? a = some r ∧ b ∈ t.blockers a r

/-- The registered request of `a` is stopped by a lock of `b`. -/
def WaitsFor (a b : TxnId) : Prop := t.Follows t.waiting a b

/-! ## The search -/

theorem follows_erase {pending : FinMap TxnId LockRequest} {txn a b : TxnId} :
    t.Follows (pending.erase txn) a b ↔ a ≠ txn ∧ t.Follows pending a b := by
  unfold Follows
  by_cases same : a = txn <;> simp [same]

/-- The search meets `target` exactly if one of the transactions on the stack leads to
it. -/
theorem reaches_iff (target : TxnId) (pending : FinMap TxnId LockRequest) (stack : List TxnId) :
    t.reaches target pending stack = true ↔
      ∃ a ∈ stack, ReflTransGen (t.Follows pending) a target := by
  induction pending, stack using LockTable.reaches.induct t target with
  | case1 pending => simp [reaches]
  | case2 pending stack =>
      rw [reaches]
      exact ⟨fun _ => ⟨target, by simp, .refl⟩, fun _ => by simp⟩
  | case3 pending txn stack apart absent ih =>
      have stuck : ∀ b, ¬ t.Follows pending txn b := by
        rintro b ⟨r, found, -⟩
        rw [absent] at found
        cases found
      have elsewhere : ¬ ReflTransGen (t.Follows pending) txn target := by
        rw [reflTransGen_iff_eq stuck]
        exact Ne.symm apart
      rw [reaches, if_neg apart]
      split
      · rw [ih]
        simp [elsewhere]
      · simp_all
  | case4 pending txn stack apart request found ih =>
      have passed : t.Follows (pending.erase txn) = fun a b => a ≠ txn ∧ t.Follows pending a b :=
        funext fun a => funext fun b => propext (t.follows_erase)
      have step : ∀ b, t.Follows pending txn b ↔ b ∈ t.blockers txn request := by
        intro b
        simp [Follows, found]
      have unfolded : t.reaches target pending (txn :: stack) =
          t.reaches target (pending.erase txn) (t.blockers txn request ++ stack) := by
        rw [reaches, if_neg apart]
        split
        · simp_all
        · simp_all
      rw [unfolded, ih, passed]
      constructor
      · rintro ⟨b, member, avoids⟩
        have path : ReflTransGen (t.Follows pending) b target :=
          ReflTransGen.mono (fun c d edge => edge.2) _ _ avoids
        rcases List.mem_append.1 member with blocks | later
        · exact ⟨txn, by simp, .head ((step b).2 blocks) path⟩
        · exact ⟨b, by simp [later], path⟩
      · rintro ⟨a, member, path⟩
        rcases path_avoids txn path with avoids | ⟨b, edge, avoids⟩
        · rcases List.mem_cons.1 member with rfl | later
          · -- Nothing leaves `txn` any more, so it would have to be the target.
            rcases avoids.cases_head with same | ⟨c, ⟨start, -⟩, -⟩
            · exact absurd same apart
            · exact absurd rfl start
          · exact ⟨a, by simp [later], avoids⟩
        · exact ⟨b, by simp [(step b).1 edge], avoids⟩

/-- **The verdict is exact.**  A wait is refused exactly if one of those it would wait
for already waits, directly or through others, for the transaction. -/
theorem waitCloses_iff (txn : TxnId) (blocking : List TxnId) :
    t.waitCloses txn blocking = true ↔ ∃ a ∈ blocking, ReflTransGen t.WaitsFor a txn :=
  t.reaches_iff txn t.waiting blocking

/-! ## One operation -/

variable {t} {txn : TxnId}

theorem SameView.waitsFor {after : LockTable} (view : t.SameView after) (a b : TxnId) :
    after.WaitsFor a b ↔ t.WaitsFor a b := by
  unfold WaitsFor Follows
  simp only [mem_blockers, view.waiting, view.holders]

/-- Withdrawing a registration only takes edges away. -/
theorem waitsFor_unregister {a b : TxnId} (edge : (t.unregister txn).WaitsFor a b) :
    a ≠ txn ∧ t.WaitsFor a b := (t.follows_erase).1 edge

theorem acyclic_unregister (acyclic : Acyclic t.WaitsFor) :
    Acyclic (t.unregister txn).WaitsFor :=
  acyclic_mono (fun _ _ edge => (waitsFor_unregister edge).2) acyclic

/-- A grant stops others by the new lock only. -/
theorem mem_blockers_grant {r wanted : LockRequest} {a b : TxnId}
    (blocks : b ∈ (t.grant txn r).blockers a wanted) (apart : b ≠ txn) :
    b ∈ t.blockers a wanted := by
  rw [mem_blockers, holders_grant] at blocks
  rw [mem_blockers]
  obtain ⟨l, there, rfl, other, against⟩ := blocks
  refine ⟨l, ?_, rfl, other, against⟩
  split at there
  · rename_i same
    rcases mem_addHolder txn there with ⟨old, -⟩ | new
    · exact same ▸ old
    · exact absurd (by rw [new]) apart
  · exact there

theorem acyclic_grant (r : LockRequest) (acyclic : Acyclic t.WaitsFor) :
    Acyclic ((t.grant txn r).unregister txn).WaitsFor := by
  refine acyclic_sink (x := txn) ?_ ?_ acyclic
  · intro a b edge apart
    obtain ⟨-, wanted, found, blocks⟩ := waitsFor_unregister edge
    rw [waiting_grant] at found
    exact ⟨wanted, found, mem_blockers_grant blocks apart⟩
  · intro b edge
    exact (waitsFor_unregister edge).1 rfl

theorem acyclic_register {r : LockRequest}
    (clear : t.waitCloses txn (t.blockers txn r) = false) (acyclic : Acyclic t.WaitsFor) :
    Acyclic (t.register txn r).WaitsFor := by
  refine acyclic_redirect (x := txn) ?_ ?_ acyclic
  · rintro a b ⟨wanted, found, blocks⟩ apart
    rw [waiting_register, if_neg apart] at found
    exact ⟨wanted, found, blocks⟩
  · rintro b ⟨wanted, found, blocks⟩ back
    rw [waiting_register, if_pos rfl, Option.some.injEq] at found
    subst found
    have closes := (t.waitCloses_iff txn (t.blockers txn r)).2 ⟨b, blocks, back⟩
    rw [clear] at closes
    cases closes

theorem acyclic_request (txn : TxnId) (r : LockRequest) (acyclic : Acyclic t.WaitsFor) :
    Acyclic (t.request txn r).2.WaitsFor := by
  rcases t.request_cases txn r with
    ⟨-, same⟩ | ⟨-, ⟨-, same⟩ | ⟨-, ⟨-, same⟩ | ⟨clear, same⟩⟩⟩ <;> rw [same]
  · exact acyclic_unregister acyclic
  · exact acyclic_grant r acyclic
  · exact acyclic_unregister acyclic
  · exact acyclic_register clear acyclic

/-- Locks that go away stop nobody. -/
theorem waitsFor_of_fewer {after : LockTable}
    (holders : ∀ page, ∀ l ∈ after.holders page, l ∈ t.holders page)
    (waiting : ∀ a r, after.waiting.get? a = some r → t.waiting.get? a = some r)
    (a b : TxnId) (edge : after.WaitsFor a b) : t.WaitsFor a b := by
  obtain ⟨r, found, blocks⟩ := edge
  obtain ⟨l, there, rest⟩ := (mem_blockers _ _).1 blocks
  exact ⟨r, waiting a r found, (mem_blockers _ _).2 ⟨l, holders _ l there, rest⟩⟩

theorem acyclic_release (txn : TxnId) (page : PageId) (acyclic : Acyclic t.WaitsFor) :
    Acyclic (t.release txn page).2.WaitsFor := by
  refine acyclic_mono (waitsFor_of_fewer ?_ ?_) acyclic
  · intro p l there
    rw [holders_release] at there
    split at there
    · rename_i same
      exact same ▸ (mem_others.1 there).1
    · exact there
  · intro a r found
    rwa [waiting_release] at found

theorem acyclic_releaseAll (txn : TxnId) (acyclic : Acyclic t.WaitsFor) :
    Acyclic (t.releaseAll txn).2.WaitsFor := by
  refine acyclic_mono (waitsFor_of_fewer ?_ ?_) acyclic
  · intro p l there
    rw [holders_releaseAll] at there
    exact (mem_others.1 there).1
  · intro a r found
    rw [waiting_releaseAll] at found
    split at found
    · cases found
    · exact found

end LockTable

namespace LockRoom

/-- **No undetected deadlock.**  After every run no transaction waits, directly or
through others, for itself. -/
theorem acyclic_run (calls : List LockCall) : Acyclic (run calls).table.WaitsFor := by
  refine run_induction (P := fun t => Acyclic t.WaitsFor) ?_ ?_ ?_ ?_ ?_ calls
  · rintro a circle
    obtain ⟨b, ⟨r, found, -⟩, -⟩ := TransGen.head'_iff.1 circle
    cases found
  · intro t after view acyclic
    exact acyclic_mono (fun a b edge => (view.waitsFor a b).1 edge) acyclic
  · exact fun _ txn r acyclic => LockTable.acyclic_request txn r acyclic
  · exact fun _ txn page acyclic => LockTable.acyclic_release txn page acyclic
  · exact fun _ txn acyclic => LockTable.acyclic_releaseAll txn acyclic

/-- Two writers that each want the other's page: the second is refused the wait. -/
example :
    ((run [.grant ⟨1⟩ ⟨⟨1, 0⟩, .exclusive⟩, .grant ⟨2⟩ ⟨⟨1, 1⟩, .exclusive⟩,
      .acquire ⟨1⟩ ⟨⟨1, 1⟩, .exclusive⟩]).table.request ⟨2⟩ ⟨⟨1, 0⟩, .exclusive⟩).1 =
      .deadlock := by
  cbv

end LockRoom

end RowStore
