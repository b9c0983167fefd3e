/-
# RowStore.Proofs.Lock.Verdicts -- what an attempt answers and what it changes

An attempt ends in one of three ways.  Which one is decided by the locks on the page
and, if one of them stands against the request, by the wait-for relation: the search
before a wait looks for the requester among those it would then wait for, directly or
through others.

`waitCloses` uses up registrations as it goes.  `Search` is the same search with a
record of where it has been and a stack of where it has yet to go.  The stack does not
bound it: a transaction may be put there many times, and the relation may have
circles that the requester is not on.  What bounds it is its `load`.  A transaction
met for the first time leaves the stack and moves its stoppers from those still to
come onto the stack; one met again only leaves it.  So every turn takes exactly one
off the load (`load_turn`), and the search answers within as many turns.
-/
import Mathlib.Algebra.Order.BigOperators.Group.List
import Mathlib.Algebra.Ring.Nat
import RowStore.Proofs.Lock.Exclusion
import RowStore.Proofs.Lock.WaitFor

namespace RowStore

set_option autoImplicit false

open Relation

namespace LockTable

variable (t : LockTable)

/-- Those whose locks stop the registered request of a transaction. -/
def stoppers (txn : TxnId) : List TxnId :=
  match t.waiting.get? txn with
  | some r => t.blockers txn r
  | none => []

theorem mem_stoppers {a b : TxnId} : b ∈ t.stoppers a ↔ t.WaitsFor a b := by
  unfold stoppers WaitsFor Follows
  cases found : t.waiting.get? a with
  | none => simp
  | some r => simp

theorem stoppers_of_unregistered {txn : TxnId} (absent : txn ∉ t.waiting.keys) :
    t.stoppers txn = [] := by
  refine List.eq_nil_iff_forall_not_mem.2 fun b stops => ?_
  obtain ⟨r, found, -⟩ := t.mem_stoppers.1 stops
  exact absent (FinMap.mem_keys.2 ⟨r, found⟩)

/-! ## The search with its record -/

/-- A search under way: the transactions it has been through and those it has yet to
look at, the next one first. -/
structure Search where
  visited : List TxnId
  stack : List TxnId

namespace Search

/-- The search from these transactions, the last one first. -/
def start (blocking : List TxnId) : Search := ⟨[], blocking.reverse⟩

/-- One turn of the search: its answer, or how it goes on. -/
def turn (target : TxnId) : Search → Bool ⊕ Search
  | ⟨_, []⟩ => .inl false
  | ⟨visited, txn :: stack⟩ =>
      if txn = target then .inl true
      else if txn ∈ visited then .inr ⟨visited, stack⟩
      else .inr ⟨txn :: visited, (t.stoppers txn).reverse ++ stack⟩

/-- The answer of the search, if it has one after so many turns. -/
def answer (target : TxnId) : Nat → Search → Option Bool
  | 0, _ => none
  | turns + 1, search =>
      match search.turn t target with
      | .inl found => some found
      | .inr next => next.answer target turns

/-- The three turns at a transaction: the target, one met again, one met for the first
time. -/
theorem turn_cases (target txn : TxnId) (visited stack : List TxnId) :
    (txn = target ∧ turn t target ⟨visited, txn :: stack⟩ = .inl true) ∨
      txn ≠ target ∧
        ((txn ∈ visited ∧ turn t target ⟨visited, txn :: stack⟩ = .inr ⟨visited, stack⟩) ∨
          txn ∉ visited ∧ turn t target ⟨visited, txn :: stack⟩ =
            .inr ⟨txn :: visited, (t.stoppers txn).reverse ++ stack⟩) := by
  by_cases same : txn = target
  · exact Or.inl ⟨same, if_pos same⟩
  · by_cases seen : txn ∈ visited
    · exact Or.inr ⟨same, Or.inl ⟨seen, (if_neg same).trans (if_pos seen)⟩⟩
    · exact Or.inr ⟨same, Or.inr ⟨seen, (if_neg same).trans (if_neg seen)⟩⟩

/-- The stoppers of the registrations that the search has not come by. -/
def toCome (visited : List TxnId) : Nat :=
  ((t.waiting.keys.filter fun a => decide (a ∉ visited)).map fun a => (t.stoppers a).length).sum

/-- How often the search may still look at a transaction. -/
def load (search : Search) : Nat := search.stack.length + toCome t search.visited

/-! ## Its end -/

/-- A transaction met for the first time takes its stoppers off those to come. -/
theorem toCome_visit {visited : List TxnId} {txn : TxnId} (unseen : txn ∉ visited) :
    toCome t visited = (t.stoppers txn).length + toCome t (txn :: visited) := by
  unfold toCome
  have rest : (t.waiting.keys.filter fun a => decide (a ∉ txn :: visited)) =
      (t.waiting.keys.filter fun a => decide (a ∉ visited)).erase txn := by
    rw [(t.waiting.keys_nodup.filter _).erase_eq_filter, List.filter_filter]
    refine List.filter_congr fun a _ => ?_
    by_cases same : a = txn <;> simp [same]
  rw [rest]
  by_cases registered : txn ∈ t.waiting.keys
  · have listed : txn ∈ t.waiting.keys.filter fun a => decide (a ∉ visited) :=
      List.mem_filter.2 ⟨registered, by simpa using unseen⟩
    exact (List.sum_map_erase (fun a => (t.stoppers a).length) listed).symm
  · have unlisted : txn ∉ t.waiting.keys.filter fun a => decide (a ∉ visited) :=
      fun listed => registered (List.mem_filter.1 listed).1
    rw [t.stoppers_of_unregistered registered, List.erase_of_not_mem unlisted]
    simp

/-- **Every turn takes one off the load.** -/
theorem load_turn {target : TxnId} {search next : Search}
    (goes : search.turn t target = .inr next) : search.load t = next.load t + 1 := by
  obtain ⟨visited, stack⟩ := search
  cases stack with
  | nil => cases goes
  | cons txn stack =>
      rcases turn_cases t target txn visited stack with
        ⟨-, same⟩ | ⟨-, ⟨-, same⟩ | ⟨unseen, same⟩⟩ <;> rw [same] at goes <;> cases goes
      · simp only [load, List.length_cons]
        omega
      · have moved := toCome_visit t unseen
        simp only [load, List.length_cons, List.length_append, List.length_reverse]
        omega

/-! ## Its answer -/

/-- The answer that the search is to give: a transaction on the stack leads to the
target without leaving from where the search has been. -/
def Leads (target : TxnId) (search : Search) : Prop :=
  ∃ a ∈ search.stack, ReflTransGen (fun b c => b ∉ search.visited ∧ t.WaitsFor b c) a target

/-- A transaction met again leads nowhere. -/
theorem leads_skip {target txn : TxnId} {visited stack : List TxnId} (apart : txn ≠ target)
    (seen : txn ∈ visited) :
    Leads t target ⟨visited, stack⟩ ↔ Leads t target ⟨visited, txn :: stack⟩ := by
  constructor
  · rintro ⟨a, member, path⟩
    exact ⟨a, List.mem_cons_of_mem _ member, path⟩
  · rintro ⟨a, member, path⟩
    rcases List.mem_cons.1 member with rfl | later
    · rcases path.cases_head with same | ⟨c, ⟨unseen, -⟩, -⟩
      · exact absurd same apart
      · exact absurd seen unseen
    · exact ⟨a, later, path⟩

/-- A transaction met for the first time leads where its stoppers lead, which need not
come back to it. -/
theorem leads_visit {target txn : TxnId} {visited stack : List TxnId} (apart : txn ≠ target)
    (unseen : txn ∉ visited) :
    Leads t target ⟨txn :: visited, (t.stoppers txn).reverse ++ stack⟩ ↔
      Leads t target ⟨visited, txn :: stack⟩ := by
  have passed : (fun b c => b ∉ txn :: visited ∧ t.WaitsFor b c) =
      fun b c => b ≠ txn ∧ b ∉ visited ∧ t.WaitsFor b c := by
    funext b c
    simp only [List.mem_cons, not_or, and_assoc]
  unfold Leads
  simp only [passed]
  constructor
  · rintro ⟨b, member, avoids⟩
    have path := ReflTransGen.mono (fun _ _ edge => edge.2) _ _ avoids
    rcases List.mem_append.1 member with stops | later
    · have edge := t.mem_stoppers.1 (List.mem_reverse.1 stops)
      exact ⟨txn, by simp, .head ⟨unseen, edge⟩ path⟩
    · exact ⟨b, by simp [later], path⟩
  · rintro ⟨a, member, path⟩
    rcases path_avoids txn path with avoids | ⟨b, ⟨-, edge⟩, avoids⟩
    · rcases List.mem_cons.1 member with rfl | later
      · -- Nothing leaves `a` any more, so it would have to be the target.
        rcases avoids.cases_head with same | ⟨c, ⟨start, -⟩, -⟩
        · exact absurd same apart
        · exact absurd rfl start
      · exact ⟨a, by simp [later], avoids⟩
    · exact ⟨b, by simp [t.mem_stoppers.2 edge], avoids⟩

/-- A turn that goes on does not change the answer. -/
theorem leads_turn {target : TxnId} {search next : Search}
    (goes : search.turn t target = .inr next) : next.Leads t target ↔ search.Leads t target := by
  obtain ⟨visited, stack⟩ := search
  cases stack with
  | nil => cases goes
  | cons txn stack =>
      rcases turn_cases t target txn visited stack with
        ⟨-, same⟩ | ⟨apart, ⟨seen, same⟩ | ⟨unseen, same⟩⟩ <;> rw [same] at goes <;> cases goes
      · exact leads_skip t apart seen
      · exact leads_visit t apart unseen

/-- A turn that answers gives the right answer. -/
theorem leads_iff_of_turn {target : TxnId} {search : Search} {found : Bool}
    (ends : search.turn t target = .inl found) : found = true ↔ search.Leads t target := by
  obtain ⟨visited, stack⟩ := search
  cases stack with
  | nil =>
      cases ends
      simp [Leads]
  | cons txn stack =>
      rcases turn_cases t target txn visited stack with
        ⟨here, same⟩ | ⟨-, ⟨-, same⟩ | ⟨-, same⟩⟩ <;> rw [same] at ends <;> cases ends
      exact ⟨fun _ => ⟨txn, by simp, here ▸ .refl⟩, fun _ => rfl⟩

/-- The search answers within one turn more than its load, whatever the table. -/
theorem exists_answer (target : TxnId) (turns : Nat) (search : Search)
    (enough : search.load t < turns) :
    ∃ found, search.answer t target turns = some found ∧
      (found = true ↔ search.Leads t target) := by
  induction turns generalizing search with
  | zero => exact absurd enough (Nat.not_lt_zero _)
  | succ turns ih =>
      unfold answer
      cases outcome : search.turn t target with
      | inl found => exact ⟨found, rfl, leads_iff_of_turn t outcome⟩
      | inr next =>
          have lighter := load_turn t outcome
          obtain ⟨found, same, right⟩ := ih next (by omega)
          exact ⟨found, same, right.trans (leads_turn t outcome)⟩

/-- The search with its record gives the answer of the search that uses up
registrations. -/
theorem answer_start (target : TxnId) (blocking : List TxnId) (more : Nat) :
    (start blocking).answer t target ((start blocking).load t + more + 1) =
      some (t.waitCloses target blocking) := by
  obtain ⟨found, same, right⟩ :=
    exists_answer t target ((start blocking).load t + more + 1) (start blocking) (by omega)
  have leads : (start blocking).Leads t target ↔ t.waitCloses target blocking = true := by
    rw [t.waitCloses_iff]
    simp [Leads, start]
  rw [same, Option.some.injEq, Bool.eq_iff_iff]
  exact right.trans leads

end Search

/-! ## The verdict -/

/-- Another transaction's lock stands against the request. -/
def Conflict (txn : TxnId) (r : LockRequest) : Prop :=
  ∃ l ∈ t.holders r.page, l.txn ≠ txn ∧ l.mode.compatible r.mode = false

/-- One whose lock stands against the request waits, directly or through others, for
the transaction. -/
def ClosesCircle (txn : TxnId) (r : LockRequest) : Prop :=
  ∃ l ∈ t.holders r.page, (l.txn ≠ txn ∧ l.mode.compatible r.mode = false) ∧
    ReflTransGen t.WaitsFor l.txn txn

theorem conflict_iff {txn : TxnId} {r : LockRequest} :
    t.Conflict txn r ↔ t.blockers txn r ≠ [] := by
  constructor
  · rintro ⟨l, there, stands⟩
    exact List.ne_nil_of_mem ((t.mem_blockers txn).2 ⟨l, there, rfl, stands⟩)
  · intro blocked
    obtain ⟨other, blocks⟩ := List.exists_mem_of_ne_nil _ blocked
    obtain ⟨l, there, -, stands⟩ := (t.mem_blockers txn).1 blocks
    exact ⟨l, there, stands⟩

theorem closesCircle_iff {txn : TxnId} {r : LockRequest} :
    t.ClosesCircle txn r ↔ t.waitCloses txn (t.blockers txn r) = true := by
  rw [t.waitCloses_iff]
  constructor
  · rintro ⟨l, there, stands, path⟩
    exact ⟨l.txn, (t.mem_blockers txn).2 ⟨l, there, rfl, stands⟩, path⟩
  · rintro ⟨other, blocks, path⟩
    obtain ⟨l, there, rfl, stands⟩ := (t.mem_blockers txn).1 blocks
    exact ⟨l, there, stands, path⟩

variable {t}

/-- Where locks stand side by side, nothing stands against a request that is served
already. -/
theorem SideBySide.not_conflict {txn : TxnId} {r : LockRequest}
    (ok : SideBySide (t.holders r.page)) (served : t.serves txn r = true) : ¬ t.Conflict txn r := by
  rintro ⟨l, there, apart, against⟩
  obtain ⟨mode, found, covers⟩ := (Option.any_eq_true _ _).1 served
  have mine := t.mem_of_heldMode txn found
  rcases ok with ⟨shared, -⟩ | ⟨owner, alone⟩
  · -- All are shared, so the request is for a shared lock as well.
    have wanted : r.mode = .shared := by
      have held : mode = .shared := shared _ mine
      simpa [held, LockMode.covers] using covers
    rw [shared l there, wanted] at against
    cases against
  · rw [alone, List.mem_singleton] at mine there
    exact apart (by rw [there, ← mine])

/-- The verdict in terms of the table: no lock stands against a granted request, and
whether one that is not granted may wait depends on the circle. -/
theorem SideBySide.verdict {txn : TxnId} {r : LockRequest} (ok : SideBySide (t.holders r.page)) :
    ((t.request txn r).1 = .granted ↔ t.serves txn r = true ∨ ¬ t.Conflict txn r) ∧
      ((t.request txn r).1 = .deadlock ↔ t.Conflict txn r ∧ t.ClosesCircle txn r) ∧
        ((t.request txn r).1 = .wait ↔ t.Conflict txn r ∧ ¬ t.ClosesCircle txn r) := by
  rcases t.request_cases txn r with
    ⟨served, same⟩ | ⟨unserved, ⟨free, same⟩ | ⟨blocked, ⟨closes, same⟩ | ⟨clear, same⟩⟩⟩
  · have none := ok.not_conflict served
    simp [same, served, none]
  · have none : ¬ t.Conflict txn r := fun conflict => (t.conflict_iff.1 conflict) free
    simp [same, none]
  · have conflict := t.conflict_iff.2 blocked
    have circle := t.closesCircle_iff.2 closes
    simp [same, unserved, conflict, circle]
  · have conflict := t.conflict_iff.2 blocked
    have open' : ¬ t.ClosesCircle txn r := by
      rw [t.closesCircle_iff, clear]
      simp
    simp [same, unserved, conflict, open']

/-! ## The change -/

/-- The registration of a transaction has become this one, those of the others are as
they were. -/
def Reregistered (t after : LockTable) (txn : TxnId) (pending : Option LockRequest) : Prop :=
  ∀ a, after.waiting.get? a = if a = txn then pending else t.waiting.get? a

/-- Only the lock of the transaction on the page is new: it now serves the request.  An
entry that was there keeps its bell and its count, a new one holds this lock only. -/
structure OwnLockOnly (t after : LockTable) (txn : TxnId) (r : LockRequest) : Prop where
  elsewhere : ∀ page, page ≠ r.page → after.pages.get? page = t.pages.get? page
  others : others (after.holders r.page) txn = others (t.holders r.page) txn
  own : after.heldMode txn r.page =
    if t.serves txn r then t.heldMode txn r.page else some r.mode
  entry : ∀ before, t.pages.get? r.page = some before →
    ∃ holders, after.pages.get? r.page = some { before with holders }
  fresh : t.pages.get? r.page = none →
    after.pages.get? r.page = some ⟨t.nextBell, [⟨txn, r.mode⟩], 0⟩

theorem ownLockOnly_of_served {after : LockTable} {txn : TxnId} {r : LockRequest}
    (served : t.serves txn r = true) (same : after.pages = t.pages) :
    OwnLockOnly t after txn r where
  elsewhere := fun page _ => by rw [same]
  others := by rw [holders, same, holders]
  own := by
    rw [if_pos served, heldMode, holders, same]
    rfl
  entry := fun before found => ⟨before.holders, by rw [same, found]⟩
  fresh := by
    intro absent
    have unserved : t.serves txn r = false := by simp [serves, heldMode, holders, absent]
    rw [unserved] at served
    cases served

theorem ownLockOnly_grant {txn : TxnId} {r : LockRequest} (unserved : t.serves txn r = false) :
    OwnLockOnly t ((t.grant txn r).unregister txn) txn r where
  elsewhere := by
    intro page apart
    show (t.grant txn r).pages.get? page = t.pages.get? page
    unfold grant
    split <;> simp [apart]
  others := by rw [holders_unregister, holders_grant, if_pos rfl, others_addHolder]
  own := by
    rw [unserved, heldMode, holders_unregister, holders_grant, if_pos rfl, find?_addHolder]
    rfl
  entry := by
    intro before found
    refine ⟨addHolder before.holders txn r.mode, ?_⟩
    show (t.grant txn r).pages.get? r.page = _
    simp [grant, found]
  fresh := by
    intro absent
    show (t.grant txn r).pages.get? r.page = _
    simp [grant, absent]

/-- What each verdict changes. -/
theorem request_change (t : LockTable) (txn : TxnId) (r : LockRequest) :
    match t.request txn r with
    | (.wait, after) =>
        after.pages = t.pages ∧ after.nextBell = t.nextBell ∧ Reregistered t after txn (some r)
    | (.deadlock, after) =>
        after.pages = t.pages ∧ after.nextBell = t.nextBell ∧ Reregistered t after txn none
    | (.granted, after) => OwnLockOnly t after txn r ∧ Reregistered t after txn none := by
  rcases t.request_cases txn r with
    ⟨served, same⟩ | ⟨unserved, ⟨-, same⟩ | ⟨-, ⟨-, same⟩ | ⟨-, same⟩⟩⟩ <;> rw [same]
  · exact ⟨ownLockOnly_of_served served rfl, fun a => by rw [waiting_unregister]⟩
  · exact ⟨ownLockOnly_grant unserved, fun a => by rw [waiting_unregister, waiting_grant]⟩
  · exact ⟨rfl, rfl, fun a => by rw [waiting_unregister]⟩
  · exact ⟨rfl, rfl, fun a => by rw [waiting_register]⟩

end LockTable

namespace LockRoom

open LockTable

/-- **Verdicts.**  In every table the search ends and finds the requester exactly if
one of those it starts from leads to it.  After every run, an attempt is granted
exactly if it is served already or no lock of another stands against it; it is a
deadlock exactly if one does that leads back to the requester, and has to wait
otherwise.  A wait changes the registration of the requester, a deadlock withdraws
it, and a grant withdraws it and changes the requester's lock on the page. -/
theorem verdict_run :
    (∀ (t : LockTable) (txn : TxnId) (blocking : List TxnId),
      (∀ more, (Search.start blocking).answer t txn ((Search.start blocking).load t + more + 1) =
          some (t.waitCloses txn blocking)) ∧
        (t.waitCloses txn blocking = true ↔ ∃ a ∈ blocking, ReflTransGen t.WaitsFor a txn)) ∧
      ∀ (calls : List LockCall) (txn : TxnId) (r : LockRequest),
        let t := (run calls).table
        ((t.request txn r).1 = .granted ↔ t.serves txn r = true ∨ ¬ t.Conflict txn r) ∧
          ((t.request txn r).1 = .deadlock ↔ t.Conflict txn r ∧ t.ClosesCircle txn r) ∧
          ((t.request txn r).1 = .wait ↔ t.Conflict txn r ∧ ¬ t.ClosesCircle txn r) ∧
          match t.request txn r with
          | (.wait, after) =>
              after.pages = t.pages ∧ after.nextBell = t.nextBell ∧
                Reregistered t after txn (some r)
          | (.deadlock, after) =>
              after.pages = t.pages ∧ after.nextBell = t.nextBell ∧ Reregistered t after txn none
          | (.granted, after) => OwnLockOnly t after txn r ∧ Reregistered t after txn none := by
  refine ⟨fun t txn blocking => ⟨Search.answer_start t txn blocking, t.waitCloses_iff txn blocking⟩,
    fun calls txn r => ?_⟩
  have ok := sideBySide_run calls r.page
  exact ⟨ok.verdict.1, ok.verdict.2.1, ok.verdict.2.2, request_change _ txn r⟩

/-- Two transactions that wait for each other do not keep the search from ending, nor
from finding that a third one may wait for them. -/
example :
    let t : LockTable :=
      ⟨FinMap.empty.insert ⟨1, 0⟩ ⟨0, [⟨⟨2⟩, .exclusive⟩], 1⟩ |>.insert ⟨1, 1⟩
          ⟨1, [⟨⟨3⟩, .exclusive⟩], 1⟩,
        FinMap.empty.insert ⟨2⟩ ⟨⟨1, 1⟩, .shared⟩ |>.insert ⟨3⟩ ⟨⟨1, 0⟩, .shared⟩, 2⟩
    (Search.start [⟨2⟩, ⟨3⟩, ⟨2⟩]).answer t ⟨1⟩ 6 = some false ∧
      (t.request ⟨1⟩ ⟨⟨1, 0⟩, .shared⟩).1 = .wait := by
  decide_cbv

end LockRoom

end RowStore
