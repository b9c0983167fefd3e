/-
# RowStore.Proofs.Lock.Ring -- a ring of writers

Each of some transactions holds a page exclusively and requests the page of the one after it, in
any order.  The requests make a wait-for relation of pieces of the ring, which closes only when
all have been made.  So all wait but the last one, which is a deadlock, and when that transaction
gives up its locks the others go on one after the other (`Ring.one_deadlock`).

A `Stage` says of a table who still has its page and who waits.  The relation leads once around
the ring exactly if all others wait, for one that has its page (`Stage.waitCloses_iff_all`).
-/
import Mathlib.Data.Fintype.Basic
import Mathlib.Data.List.FinRange
import Mathlib.Data.Nat.ModEq
import RowStore.Proofs.Lock.WaitFor

namespace RowStore

set_option autoImplicit false

open Relation

/-! ## Places on a ring -/

namespace Ring

variable {n : Nat}

/-- The place so many steps on. -/
def ahead (i : Fin n) (steps : Nat) : Fin n := ⟨(i + steps) % n, Nat.mod_lt _ i.pos⟩

def next (i : Fin n) : Fin n := ahead i 1

variable {i j : Fin n} {k m : Nat}

theorem ahead_zero (i : Fin n) : ahead i 0 = i := Fin.ext (Nat.mod_eq_of_lt i.isLt)

theorem ahead_size (i : Fin n) : ahead i n = i := by
  refine Fin.ext ?_
  show (i + n) % n = i
  rw [Nat.add_mod_right, Nat.mod_eq_of_lt i.isLt]

theorem next_ahead (i : Fin n) (k : Nat) : next (ahead i k) = ahead i (k + 1) := by
  refine Fin.ext ?_
  show ((i + k) % n + 1) % n = (i + (k + 1)) % n
  rw [Nat.mod_add_mod, Nat.add_assoc]

theorem exists_ahead (i j : Fin n) : ∃ k < n, ahead i k = j := by
  refine ⟨(j + (n - i)) % n, Nat.mod_lt _ i.pos, Fin.ext ?_⟩
  show (i + (j + (n - i)) % n) % n = j
  rw [Nat.add_mod_mod, show (i : Nat) + (j + (n - i)) = j + n by omega, Nat.add_mod_right,
    Nat.mod_eq_of_lt j.isLt]

/-- Less than a whole turn leads to another place. -/
theorem ahead_ne (i : Fin n) (before : k < m) (near : m < k + n) : ahead i k ≠ ahead i m := by
  intro same
  have images : i + k ≡ i + m [MOD n] := congrArg Fin.val same
  have turns := (Nat.modEq_iff_dvd' (Nat.le_of_lt before)).1 (Nat.ModEq.add_left_cancel' _ images)
  exact Nat.not_dvd_of_pos_of_lt (by omega) (by omega) turns

theorem next_ne (two : 2 ≤ n) (i : Fin n) : next i ≠ i := by
  have apart := ahead_ne i Nat.zero_lt_one (by omega : 1 < 0 + n)
  rw [ahead_zero] at apart
  exact apart.symm

/-- The places up to so many steps on, the farthest first.  `behind i (n - 1)` are all the others,
and the one right behind `i` is the first of them. -/
def behind (i : Fin n) : Nat → List (Fin n)
  | 0 => []
  | k + 1 => ahead i (k + 1) :: behind i k

theorem mem_behind : j ∈ behind i m ↔ ∃ k < m, ahead i (k + 1) = j := by
  induction m with
  | zero => simp [behind]
  | succ m ih =>
      rw [behind, List.mem_cons, ih]
      constructor
      · rintro (rfl | ⟨k, small, same⟩)
        · exact ⟨m, Nat.lt_succ_self m, rfl⟩
        · exact ⟨k, Nat.lt_succ_of_lt small, same⟩
      · rintro ⟨k, small, rfl⟩
        rcases Nat.lt_succ_iff_lt_or_eq.1 small with less | rfl
        · exact Or.inr ⟨k, less, rfl⟩
        · exact Or.inl rfl

theorem ahead_not_mem_behind (small : m < n) : ahead i (m + 1) ∉ behind i m := by
  intro there
  obtain ⟨k, less, same⟩ := mem_behind.1 there
  exact ahead_ne i (by omega : k + 1 < m + 1) (by omega) same

theorem nodup_behind (small : m < n) : (behind i m).Nodup := by
  induction m with
  | zero => exact .nil
  | succ m ih =>
      have less := Nat.lt_of_succ_lt small
      exact List.nodup_cons.2 ⟨ahead_not_mem_behind less, ih less⟩

theorem perm_behind (i : Fin n) : (i :: behind i (n - 1)).Perm (List.finRange n) := by
  have pos := i.pos
  refine (List.perm_ext_iff_of_nodup ?_ (List.nodup_finRange n)).2 fun j => ?_
  · refine List.nodup_cons.2 ⟨?_, nodup_behind (by omega)⟩
    have absent : ahead i (n - 1 + 1) ∉ behind i (n - 1) := ahead_not_mem_behind (by omega)
    rwa [Nat.sub_add_cancel pos, ahead_size] at absent
  · refine iff_of_true ?_ (List.mem_finRange j)
    obtain ⟨_ | k, small, same⟩ := exists_ahead i j
    · rw [ahead_zero] at same
      exact same ▸ List.mem_cons_self
    · exact List.mem_cons_of_mem _ (mem_behind.2 ⟨k, by omega, same⟩)

theorem mem_behind_whole : j ∈ behind i (n - 1) ↔ j ≠ i := by
  have once := (perm_behind i).symm.nodup (List.nodup_finRange n)
  have all := (perm_behind i).symm.subset (List.mem_finRange j)
  constructor
  · rintro there rfl
    exact (List.nodup_cons.1 once).1 there
  · exact (List.mem_cons.1 all).resolve_left

theorem isChain_behind (i : Fin n) :
    (i :: behind i (n - 1)).IsChain fun before after => next after = before := by
  have links (m : Nat) :
      (ahead i (m + 1) :: behind i m).IsChain fun before after => next after = before := by
    induction m with
    | zero => exact .singleton _
    | succ m ih => exact .cons_cons (next_ahead i (m + 1)) ih
  have whole := links (n - 1)
  rwa [Nat.sub_add_cancel i.pos, ahead_size] at whole

end Ring

/-! ## Transactions on a ring -/

/-- As many transactions as there are places, each with a page of its own, and the mode in which
it requests the page of the next one. -/
structure Ring (n : Nat) where
  txn : Fin n → TxnId
  page : Fin n → PageId
  mode : Fin n → LockMode
  txn_injective : Function.Injective txn
  page_injective : Function.Injective page

namespace LockTable

/-- Attempts one after the other, and the verdict on each. -/
def requestAll : LockTable → List (TxnId × LockRequest) → List Verdict × LockTable
  | t, [] => ([], t)
  | t, (txn, r) :: rest =>
      ((t.request txn r).1 :: ((t.request txn r).2.requestAll rest).1,
        ((t.request txn r).2.requestAll rest).2)

theorem requestAll_append (t : LockTable) (front rest : List (TxnId × LockRequest)) :
    t.requestAll (front ++ rest) =
      ((t.requestAll front).1 ++ ((t.requestAll front).2.requestAll rest).1,
        ((t.requestAll front).2.requestAll rest).2) := by
  induction front generalizing t with
  | nil => rfl
  | cons first more ih =>
      obtain ⟨txn, r⟩ := first
      rw [List.cons_append, requestAll, ih, requestAll]
      rfl

/-- An attempt changes no registration but that of the requester. -/
theorem waiting_request (t : LockTable) (txn : TxnId) (r : LockRequest) {a : TxnId}
    (apart : a ≠ txn) : (t.request txn r).2.waiting.get? a = t.waiting.get? a := by
  rcases t.request_cases txn r with
    ⟨-, same⟩ | ⟨-, ⟨-, same⟩ | ⟨-, ⟨-, same⟩ | ⟨-, same⟩⟩⟩ <;> rw [same] <;> simp [apart]

end LockTable

namespace Ring

variable {n : Nat} (ring : Ring n)

/-- The request for the page of the next one. -/
def request (i : Fin n) : LockRequest := ⟨ring.page (next i), ring.mode i⟩

def asks (i : Fin n) : TxnId × LockRequest := (ring.txn i, ring.request i)

/-- Each transaction has the exclusive lock on its page, and there is no other lock and nobody
waits. -/
structure Held (t : LockTable) : Prop where
  own : ∀ i, t.holders (ring.page i) = [⟨ring.txn i, .exclusive⟩]
  elsewhere : ∀ page, (∀ i, ring.page i ≠ page) → t.holders page = []
  calm : ∀ a, t.waiting.get? a = none

/-- One after the other gets its lock and releases all that it has, and until it is its turn
each has to wait.  No lock is left at the end. -/
def Drains (t : LockTable) : List (Fin n) → Prop
  | [] => ∀ page, t.holders page = []
  | i :: rest =>
      (t.request (ring.txn i) (ring.request i)).1 = .granted ∧
        (∀ j ∈ rest, (t.request (ring.txn j) (ring.request j)).1 = .wait) ∧
        Drains ((t.request (ring.txn i) (ring.request i)).2.releaseAll (ring.txn i)).2 rest

/-- Some have the locks on their pages still, and some have been told to wait. -/
structure Stage (live asked : Finset (Fin n)) (t : LockTable) : Prop where
  own : ∀ i, t.holders (ring.page i) = if i ∈ live then [⟨ring.txn i, .exclusive⟩] else []
  elsewhere : ∀ page, (∀ i, ring.page i ≠ page) → t.holders page = []
  waiting : ∀ i, t.waiting.get? (ring.txn i) = if i ∈ asked then some (ring.request i) else none
  calm : ∀ a, (∀ i, ring.txn i ≠ a) → t.waiting.get? a = none

variable {ring} {t : LockTable} {live asked : Finset (Fin n)} {i j : Fin n}

theorem Held.stage (held : ring.Held t) : ring.Stage Finset.univ ∅ t := by
  refine ⟨fun i => ?_, held.elsewhere, fun i => ?_, fun a _ => held.calm a⟩
  · rw [held.own, if_pos (Finset.mem_univ i)]
  · rw [held.calm, if_neg (Finset.notMem_empty i)]

/-! ## What a stage says of a request -/

theorem Stage.unserved (stage : ring.Stage live asked t) (two : 2 ≤ n) (i : Fin n) :
    t.serves (ring.txn i) (ring.request i) = false := by
  have none : t.heldMode (ring.txn i) (ring.request i).page = none := by
    refine (t.heldMode_eq_none_iff _).2 fun l there own => ?_
    rw [request, stage.own] at there
    split at there
    · rw [List.mem_singleton.1 there] at own
      exact next_ne two i (ring.txn_injective own)
    · cases there
  rw [LockTable.serves, none]
  rfl

theorem Stage.blockers (stage : ring.Stage live asked t) (two : 2 ≤ n) (i : Fin n) :
    t.blockers (ring.txn i) (ring.request i) =
      if next i ∈ live then [ring.txn (next i)] else [] := by
  have apart : ring.txn (next i) ≠ ring.txn i := fun same => next_ne two i (ring.txn_injective same)
  unfold LockTable.blockers
  rw [request, stage.own]
  split
  · simp [apart, LockMode.exclusive_compatible]
  · rfl

/-- One waits for the next one, if it was told to wait and that one has its lock. -/
theorem Stage.waitsFor_iff (stage : ring.Stage live asked t) (two : 2 ≤ n) {a b : TxnId} :
    t.WaitsFor a b ↔
      ∃ i, (i ∈ asked ∧ next i ∈ live) ∧ ring.txn i = a ∧ ring.txn (next i) = b := by
  constructor
  · rintro ⟨r, found, blocks⟩
    obtain ⟨i, rfl⟩ : ∃ i, ring.txn i = a := by
      by_contra none
      rw [stage.calm a (not_exists.1 none)] at found
      cases found
    rw [stage.waiting] at found
    split at found
    · rename_i told
      cases found
      rw [stage.blockers two] at blocks
      split at blocks
      · rename_i there
        exact ⟨i, ⟨told, there⟩, rfl, (List.mem_singleton.1 blocks).symm⟩
      · cases blocks
    · cases found
  · rintro ⟨i, ⟨told, there⟩, rfl, rfl⟩
    refine ⟨ring.request i, by rw [stage.waiting, if_pos told], ?_⟩
    rw [stage.blockers two, if_pos there]
    exact List.mem_singleton_self _

/-- **Once around the ring.**  The one that has the lock leads back to the requester exactly if
all others wait for one that has its lock. -/
theorem Stage.waitCloses_iff_all (stage : ring.Stage live asked t) (two : 2 ≤ n)
    (there : next i ∈ live) :
    t.waitCloses (ring.txn i) (t.blockers (ring.txn i) (ring.request i)) = true ↔
      ∀ j, j ≠ i → j ∈ asked ∧ next j ∈ live := by
  rw [t.waitCloses_iff, stage.blockers two, if_pos there]
  simp only [List.mem_singleton, exists_eq_left]
  constructor
  · intro path
    -- What is reached is some steps on, and all on the way there wait.
    have walked : ∀ b, ReflTransGen t.WaitsFor (ring.txn (next i)) b →
        ∃ k, ring.txn (ahead i (k + 1)) = b ∧
          ∀ m < k, ahead i (m + 1) ∈ asked ∧ next (ahead i (m + 1)) ∈ live := by
      intro b path
      induction path with
      | refl => exact ⟨0, rfl, nofun⟩
      | tail _ edge ih =>
          obtain ⟨k, rfl, waits⟩ := ih
          obtain ⟨j, told, same, rfl⟩ := (stage.waitsFor_iff two).1 edge
          obtain rfl := ring.txn_injective same
          refine ⟨k + 1, by rw [next_ahead], fun m small => ?_⟩
          rcases Nat.lt_succ_iff_lt_or_eq.1 small with less | rfl
          · exact waits m less
          · exact told
    obtain ⟨k, same, waits⟩ := walked _ path
    have turn : n ≤ k + 1 := by
      by_contra small
      have apart := ahead_ne i (Nat.succ_pos k) (by omega)
      rw [ahead_zero] at apart
      exact apart (ring.txn_injective same).symm
    intro j apart
    obtain ⟨_ | m, small, rfl⟩ := exists_ahead i j
    · exact absurd (ahead_zero i) apart
    · exact waits m (by omega)
  · intro waits
    have reached : ∀ k < n,
        ReflTransGen t.WaitsFor (ring.txn (next i)) (ring.txn (ahead i (k + 1))) := by
      intro k small
      induction k with
      | zero => exact .refl
      | succ k ih =>
          refine .tail (ih (Nat.lt_of_succ_lt small)) ((stage.waitsFor_iff two).2 ?_)
          have apart := ahead_ne i (Nat.succ_pos k) (by omega)
          rw [ahead_zero] at apart
          exact ⟨_, waits _ apart.symm, rfl, by rw [next_ahead]⟩
    have around := reached (n - 1) (by omega)
    rwa [Nat.sub_add_cancel i.pos, ahead_size] at around

/-! ## The moves from stage to stage -/

/-- **The three verdicts.**  A request is granted when the next one has gone.  Otherwise it is a
deadlock if all others wait for one that has its lock, and has to wait if not. -/
theorem Stage.request_cases (stage : ring.Stage live asked t) (two : 2 ≤ n) (i : Fin n) :
    next i ∉ live ∧ (t.request (ring.txn i) (ring.request i)).1 = .granted ∨
      next i ∈ live ∧
        ((∀ j, j ≠ i → j ∈ asked ∧ next j ∈ live) ∧
            (t.request (ring.txn i) (ring.request i)).1 = .deadlock ∨
          ¬ (∀ j, j ≠ i → j ∈ asked ∧ next j ∈ live) ∧
            t.request (ring.txn i) (ring.request i) =
              (.wait, t.register (ring.txn i) (ring.request i))) := by
  have blocked := stage.blockers two i
  rcases t.request_cases (ring.txn i) (ring.request i) with
    ⟨served, -⟩ | ⟨-, ⟨free, same⟩ | ⟨stopped, ends⟩⟩
  · rw [stage.unserved two] at served
    cases served
  · refine Or.inl ⟨fun there => ?_, by rw [same]⟩
    rw [blocked, if_pos there] at free
    cases free
  · have there : next i ∈ live := by
      by_contra gone
      rw [if_neg gone] at blocked
      exact stopped blocked
    have around := stage.waitCloses_iff_all two there
    refine Or.inr ⟨there, ?_⟩
    rcases ends with ⟨closes, same⟩ | ⟨clear, same⟩
    · exact Or.inl ⟨around.1 closes, by rw [same]⟩
    · refine Or.inr ⟨fun all => ?_, same⟩
      rw [around.2 all] at clear
      cases clear

theorem Stage.request_granted (stage : ring.Stage live asked t) (two : 2 ≤ n)
    (gone : next i ∉ live) : (t.request (ring.txn i) (ring.request i)).1 = .granted := by
  rcases stage.request_cases two i with ⟨-, granted⟩ | ⟨there, -⟩
  · exact granted
  · exact absurd there gone

theorem Stage.request_deadlock (stage : ring.Stage live asked t) (two : 2 ≤ n)
    (there : next i ∈ live) (all : ∀ j, j ≠ i → j ∈ asked ∧ next j ∈ live) :
    (t.request (ring.txn i) (ring.request i)).1 = .deadlock := by
  rcases stage.request_cases two i with ⟨gone, -⟩ | ⟨-, ⟨-, refused⟩ | ⟨incomplete, -⟩⟩
  · exact absurd there gone
  · exact refused
  · exact absurd all incomplete

theorem Stage.request_wait (stage : ring.Stage live asked t) (two : 2 ≤ n) (there : next i ∈ live)
    (other : j ≠ i) (gap : ¬ (j ∈ asked ∧ next j ∈ live)) :
    t.request (ring.txn i) (ring.request i) =
      (.wait, t.register (ring.txn i) (ring.request i)) := by
  rcases stage.request_cases two i with ⟨gone, -⟩ | ⟨-, ⟨all, -⟩ | ⟨-, told⟩⟩
  · exact absurd there gone
  · exact absurd (all j other) gap
  · exact told

/-- One more waits. -/
theorem Stage.registered (stage : ring.Stage live asked t) (i : Fin n) :
    ring.Stage live (insert i asked) (t.register (ring.txn i) (ring.request i)) := by
  refine ⟨stage.own, stage.elsewhere, fun j => ?_, fun a none => ?_⟩
  · rw [LockTable.waiting_register, stage.waiting]
    by_cases same : j = i
    · subst same
      rw [if_pos rfl, if_pos (Finset.mem_insert_self j asked)]
    · have apart : ring.txn j ≠ ring.txn i := fun equal => same (ring.txn_injective equal)
      simp only [apart, if_false, Finset.mem_insert, same, false_or]
  · rw [LockTable.waiting_register, if_neg (none i).symm, stage.calm a none]

/-- One that has tried, with whatever success, gives up all that it has. -/
theorem Stage.finished (stage : ring.Stage live asked t) (i : Fin n) (r : LockRequest) :
    ring.Stage (live.erase i) (asked.erase i)
      ((t.request (ring.txn i) r).2.releaseAll (ring.txn i)).2 := by
  have left (page : PageId) :
      ((t.request (ring.txn i) r).2.releaseAll (ring.txn i)).2.holders page =
        LockTable.others (t.holders page) (ring.txn i) := by
    rw [LockTable.holders_releaseAll, LockTable.others_request]
  have waits (a : TxnId) (apart : a ≠ ring.txn i) :
      ((t.request (ring.txn i) r).2.releaseAll (ring.txn i)).2.waiting.get? a =
        t.waiting.get? a := by
    rw [LockTable.waiting_releaseAll, if_neg apart, LockTable.waiting_request _ _ _ apart]
  refine ⟨fun j => ?_, fun page none => ?_, fun j => ?_, fun a none => ?_⟩
  · rw [left, stage.own]
    by_cases same : j = i
    · subst same
      simp [LockTable.others, apply_ite]
    · have apart : ring.txn j ≠ ring.txn i := fun equal => same (ring.txn_injective equal)
      simp [LockTable.others, apart, same, apply_ite]
  · rw [left, stage.elsewhere page none]
    rfl
  · by_cases same : j = i
    · subst same
      rw [LockTable.waiting_releaseAll, if_pos rfl, if_neg (Finset.notMem_erase j asked)]
    · rw [waits _ fun equal => same (ring.txn_injective equal), stage.waiting]
      simp [same]
  · rw [waits a (none i).symm, stage.calm a none]

/-! ## Runs -/

/-- As long as one has not asked, all others are told to wait. -/
theorem Stage.requestAll (two : 2 ≤ n) (stage : ring.Stage Finset.univ asked t) (quiet : j ∉ asked)
    {firsts : List (Fin n)} (absent : j ∉ firsts) :
    (t.requestAll (firsts.map ring.asks)).1 = List.replicate firsts.length .wait ∧
      ring.Stage Finset.univ (asked ∪ firsts.toFinset) (t.requestAll (firsts.map ring.asks)).2 := by
  induction firsts generalizing t asked with
  | nil =>
      refine ⟨rfl, ?_⟩
      rw [List.toFinset_nil, Finset.union_empty]
      exact stage
  | cons i rest ih =>
      obtain ⟨apart, later⟩ := not_or.1 (mt List.mem_cons.2 absent)
      have told := stage.request_wait two (Finset.mem_univ _) apart fun both => quiet both.1
      have still : j ∉ insert i asked := fun there =>
        (Finset.mem_insert.1 there).elim apart quiet
      obtain ⟨verdicts, after⟩ := ih (stage.registered i) still later
      rw [List.map_cons, asks, LockTable.requestAll, told]
      refine ⟨congrArg (Verdict.wait :: ·) verdicts, ?_⟩
      rw [List.toFinset_cons, Finset.union_insert, ← Finset.insert_union]
      exact after

/-- Those behind one that has gone get their locks one after the other. -/
theorem Stage.drains (two : 2 ≤ n) {m : Nat} (small : m < n)
    (stage : ring.Stage (behind i m).toFinset (behind i m).toFinset t) :
    ring.Drains t (behind i m) := by
  induction m generalizing t with
  | zero =>
      intro page
      by_cases named : ∃ j, ring.page j = page
      · obtain ⟨j, rfl⟩ := named
        rw [stage.own]
        rfl
      · exact stage.elsewhere page (not_exists.1 named)
  | succ m ih =>
      have less := Nat.lt_of_succ_lt small
      have gone : next (ahead i (m + 1)) ∉ (behind i (m + 1)).toFinset := by
        rw [List.mem_toFinset, next_ahead]
        exact ahead_not_mem_behind small
      refine ⟨stage.request_granted two gone, fun j there => ?_, ih less ?_⟩
      · obtain ⟨k, before, rfl⟩ := mem_behind.1 there
        have ahead_there : next (ahead i (k + 1)) ∈ (behind i (m + 1)).toFinset := by
          rw [List.mem_toFinset, next_ahead]
          exact mem_behind.2 ⟨k + 1, Nat.succ_lt_succ before, rfl⟩
        have apart := ahead_ne i (Nat.succ_lt_succ before) (by omega : m + 1 < k + 1 + n)
        rw [stage.request_wait two ahead_there apart.symm fun both => gone both.2]
      · have after := stage.finished (ahead i (m + 1)) (ring.request (ahead i (m + 1)))
        have rest :
            (behind i (m + 1)).toFinset.erase (ahead i (m + 1)) = (behind i m).toFinset := by
          rw [behind, List.toFinset_cons, Finset.erase_insert]
          rw [List.mem_toFinset]
          exact ahead_not_mem_behind less
        rw [rest] at after
        exact after

/-- **One deadlock.**  In whatever order the transactions of a ring make their requests, all are
told to wait but the last one, which is a deadlock.  When it has released its locks, the others
get theirs one after the other, each as soon as the one that it waits for has released all. -/
theorem one_deadlock (two : 2 ≤ n) (held : ring.Held t) {order : List (Fin n)}
    (all : order.Perm (List.finRange n)) :
    (t.requestAll (order.map ring.asks)).1 = List.replicate (n - 1) .wait ++ [.deadlock] ∧
      ∃ victim chain, order.getLast? = some victim ∧
        (victim :: chain).Perm (List.finRange n) ∧
        ((victim :: chain).IsChain fun before after => next after = before) ∧
        ring.Drains ((t.requestAll (order.map ring.asks)).2.releaseAll (ring.txn victim)).2
          chain := by
  have length : order.length = n := all.length_eq.trans List.length_finRange
  obtain ⟨firsts, victim, rfl⟩ : ∃ firsts victim, order = firsts ++ [victim] := by
    rcases List.eq_nil_or_concat order with rfl | split
    · rw [List.length_nil] at length
      omega
    · simpa using split
  have once := all.symm.nodup (List.nodup_finRange n)
  have absent : victim ∉ firsts := fun there =>
    (List.nodup_append.1 once).2.2 victim there victim (List.mem_singleton_self _) rfl
  obtain ⟨verdicts, stage⟩ := held.stage.requestAll two (Finset.notMem_empty victim) absent
  have others : ∀ j, j ≠ victim → j ∈ ∅ ∪ firsts.toFinset ∧ next j ∈ Finset.univ := by
    intro j apart
    have there := all.symm.subset (List.mem_finRange j)
    rw [List.mem_append, List.mem_singleton] at there
    rw [Finset.empty_union, List.mem_toFinset]
    exact ⟨there.resolve_right apart, Finset.mem_univ _⟩
  have refused := stage.request_deadlock two (Finset.mem_univ _) others
  rw [List.map_append, LockTable.requestAll_append]
  constructor
  · rw [List.length_append, List.length_singleton] at length
    rw [verdicts, show n - 1 = firsts.length by omega]
    exact congrArg (List.replicate firsts.length Verdict.wait ++ [·]) refused
  · refine ⟨victim, behind victim (n - 1), List.getLast?_concat, perm_behind victim,
      isChain_behind victim, ?_⟩
    have after := stage.finished victim (ring.request victim)
    have live : Finset.univ.erase victim = (behind victim (n - 1)).toFinset := by
      ext j
      simp [mem_behind_whole]
    have waiting : (∅ ∪ firsts.toFinset).erase victim = (behind victim (n - 1)).toFinset := by
      ext j
      rw [Finset.mem_erase, List.mem_toFinset, mem_behind_whole]
      exact and_iff_left_of_imp fun apart => (others j apart).1
    rw [live, waiting] at after
    exact after.drains two (by omega)

/-- Three transactions, of which the first only reads. -/
def three : Ring 3 where
  txn i := ⟨UInt64.ofNat (i + 1)⟩
  page i := ⟨1, i⟩
  mode i := if i = 0 then .shared else .exclusive
  txn_injective := by decide
  page_injective := by decide

def threeHeld : LockTable :=
  ((LockTable.empty.grant ⟨1⟩ ⟨⟨1, 0⟩, .exclusive⟩).grant ⟨2⟩ ⟨⟨1, 1⟩, .exclusive⟩).grant ⟨3⟩
    ⟨⟨1, 2⟩, .exclusive⟩

theorem held_three : three.Held threeHeld := by
  refine ⟨by decide, fun page none => ?_, fun a => rfl⟩
  have first : page ≠ ⟨1, 0⟩ := (none 0).symm
  have second : page ≠ ⟨1, 1⟩ := (none 1).symm
  have third : page ≠ ⟨1, 2⟩ := (none 2).symm
  unfold threeHeld
  rw [LockTable.holders_grant, if_neg third, LockTable.holders_grant, if_neg second,
    LockTable.holders_grant, if_neg first, LockTable.holders_empty]

theorem one_deadlock_three :
    (threeHeld.requestAll [(⟨3⟩, ⟨⟨1, 0⟩, .exclusive⟩), (⟨1⟩, ⟨⟨1, 1⟩, .shared⟩),
        (⟨2⟩, ⟨⟨1, 2⟩, .exclusive⟩)]).1 = [.wait, .wait, .deadlock] ∧
      ∃ chain, ((1 : Fin 3) :: chain).Perm (List.finRange 3) ∧
        three.Drains ((threeHeld.requestAll [(⟨3⟩, ⟨⟨1, 0⟩, .exclusive⟩),
          (⟨1⟩, ⟨⟨1, 1⟩, .shared⟩), (⟨2⟩, ⟨⟨1, 2⟩, .exclusive⟩)]).2.releaseAll ⟨2⟩).2 chain := by
  have all : [(2 : Fin 3), 0, 1].Perm (List.finRange 3) := by decide
  obtain ⟨verdicts, victim, chain, last, perm, -, drains⟩ :=
    one_deadlock (by decide) held_three all
  obtain rfl : 1 = victim := Option.some.inj last
  exact ⟨verdicts, chain, perm, drains⟩

end Ring

end RowStore
