/-
# RowStore.Proofs.Lock.Exclusion -- readers share a page, a writer has it alone

`SideBySide` is the rule for the locks that stand on one page: all are shared and no
transaction has two, or there is a single exclusive one.  A grant keeps it because a
lock is only granted when nobody else's stands against it (`SideBySide.grant`); a
release only takes locks away.  After every run each page obeys the rule, and a call
of one transaction leaves the locks of all others as they were (`holders_run`).
-/
import Mathlib.Data.List.Permutation
import RowStore.Proofs.Lock.Runs

namespace RowStore

set_option autoImplicit false

namespace LockTable

/-- All locks are shared and belong to different transactions, or one lock is exclusive
and stands alone. -/
def SideBySide (holders : List Lock) : Prop :=
  (∀ l ∈ holders, l.mode = .shared) ∧ (holders.map Lock.txn).Nodup ∨
    ∃ txn, holders = [⟨txn, .exclusive⟩]

theorem sideBySide_nil : SideBySide [] := Or.inl ⟨by simp, by simp⟩

theorem SideBySide.nodup {holders : List Lock} (ok : SideBySide holders) :
    (holders.map Lock.txn).Nodup := by
  rcases ok with ⟨-, distinct⟩ | ⟨txn, rfl⟩
  · exact distinct
  · simp

/-- An exclusive lock is the only lock on its page. -/
theorem SideBySide.alone {holders : List Lock} (ok : SideBySide holders) {txn : TxnId}
    (held : (⟨txn, .exclusive⟩ : Lock) ∈ holders) : holders = [⟨txn, .exclusive⟩] := by
  rcases ok with ⟨shared, -⟩ | ⟨other, rfl⟩
  · cases shared _ held
  · rw [List.mem_singleton.1 held]

theorem SideBySide.others {holders : List Lock} (ok : SideBySide holders) (txn : TxnId) :
    SideBySide (others holders txn) := by
  rcases ok with ⟨shared, distinct⟩ | ⟨owner, rfl⟩
  · exact Or.inl ⟨fun l member => shared l (mem_others.1 member).1,
      (List.filter_sublist.map Lock.txn).nodup distinct⟩
  · by_cases own : owner = txn
    · simp [LockTable.others, own, sideBySide_nil]
    · exact Or.inr ⟨owner, by simp [LockTable.others, own]⟩

/-- A shared lock may be put behind shared locks of others. -/
theorem SideBySide.append_shared {holders : List Lock} {txn : TxnId} (ok : SideBySide holders)
    (shared : ∀ l ∈ holders, l.mode = .shared) (strangers : ∀ l ∈ holders, l.txn ≠ txn) :
    SideBySide (holders ++ [⟨txn, .shared⟩]) := by
  refine Or.inl ⟨?_, ?_⟩
  · intro l member
    rcases List.mem_append.1 member with there | last
    · exact shared l there
    · rw [List.mem_singleton.1 last]
  · rw [List.map_append, List.nodup_append]
    refine ⟨ok.nodup, by simp, ?_⟩
    rintro a inside b last rfl
    obtain ⟨l, there, rfl⟩ := List.mem_map.1 inside
    simp only [List.map_cons, List.map_nil, List.mem_singleton] at last
    exact strangers l there last

/-- A transaction whose lock stands side by side with no other's has a single lock. -/
theorem SideBySide.eq_singleton {holders : List Lock} {l : Lock} (ok : SideBySide holders)
    (mine : l ∈ holders) (own : ∀ m ∈ holders, m.txn = l.txn) : holders = [l] := by
  match holders with
  | [] => simp at mine
  | [m] => rw [List.mem_singleton.1 mine]
  | m :: n :: rest =>
      have twice : m.txn = n.txn := (own m (by simp)).trans (own n (by simp)).symm
      have distinct := ok.nodup
      simp [twice] at distinct

/-- A lock that nobody else's stands against may be added or strengthened. -/
theorem SideBySide.grant {t : LockTable} {txn : TxnId} {r : LockRequest}
    (ok : SideBySide (t.holders r.page)) (unserved : t.serves txn r = false)
    (free : t.blockers txn r = []) : SideBySide (addHolder (t.holders r.page) txn r.mode) := by
  have agree : ∀ l ∈ t.holders r.page, l.txn ≠ txn → l.mode = .shared ∧ r.mode = .shared := by
    intro l there apart
    apply LockMode.compatible_iff.1
    by_contra against
    have blocks : l.txn ∈ t.blockers txn r :=
      (t.mem_blockers txn).2 ⟨l, there, rfl, apart, by simpa using against⟩
    simp [free] at blocks
  rcases t.not_serves txn unserved with unheld | ⟨held, wanted⟩
  · -- The transaction has no lock yet, so its lock is put behind the others.
    have strangers := (t.heldMode_eq_none_iff txn).1 unheld
    have added : addHolder (t.holders r.page) txn r.mode = t.holders r.page ++ [⟨txn, r.mode⟩] := by
      have absent : ¬ (t.holders r.page).any fun l => l.txn = txn := by simpa using strangers
      simp only [addHolder, absent, if_false, Bool.false_eq_true]
    rw [added]
    cases mode : r.mode with
    | exclusive =>
        have bare : t.holders r.page = [] := by
          refine List.eq_nil_iff_forall_not_mem.2 fun l there => ?_
          have shared := (agree l there (strangers l there)).2
          rw [mode] at shared
          cases shared
        exact Or.inr ⟨txn, by simp [bare]⟩
    | shared => exact ok.append_shared (fun l there => (agree l there (strangers l there)).1) strangers
  · -- The transaction reads the page and nobody else does, so it alone gets it.
    have own : ∀ l ∈ t.holders r.page, l.txn = txn := by
      intro l there
      by_contra apart
      have shared := (agree l there apart).2
      rw [wanted] at shared
      cases shared
    have single := ok.eq_singleton (t.mem_of_heldMode txn held) own
    exact Or.inr ⟨txn, by simp [single, addHolder, wanted]⟩

/-! ## One operation -/

theorem sideBySide_request {t : LockTable} (ok : ∀ page, SideBySide (t.holders page))
    (txn : TxnId) (r : LockRequest) (page : PageId) :
    SideBySide ((t.request txn r).2.holders page) := by
  rcases t.holders_request txn r page with same | ⟨unserved, free, rfl, same⟩
  · rw [same]; exact ok page
  · rw [same]; exact (ok r.page).grant unserved free

theorem sideBySide_release {t : LockTable} (ok : ∀ page, SideBySide (t.holders page))
    (txn : TxnId) (released page : PageId) :
    SideBySide ((t.release txn released).2.holders page) := by
  rw [holders_release]
  split
  · exact (ok released).others txn
  · exact ok page

theorem sideBySide_releaseAll {t : LockTable} (ok : ∀ page, SideBySide (t.holders page))
    (txn : TxnId) (page : PageId) : SideBySide ((t.releaseAll txn).2.holders page) := by
  rw [holders_releaseAll]
  exact (ok page).others txn

/-! ## What one transaction sees of another's locks -/

/-- Another transaction's locks do not depend on those of the transaction. -/
theorem filter_others (holders : List Lock) {txn other : TxnId} (apart : other ≠ txn) :
    (others holders txn).filter (fun l => decide (l.txn = other)) =
      holders.filter fun l => decide (l.txn = other) := by
  rw [others, List.filter_filter]
  refine List.filter_congr fun l _ => ?_
  by_cases same : l.txn = other
  · simp [same, apart]
  · simp [same]

theorem heldMode_eq_filter (t : LockTable) (txn : TxnId) (page : PageId) :
    t.heldMode txn page =
      (((t.holders page).filter fun l => decide (l.txn = txn)).head?).map Lock.mode := by
  rw [heldMode, List.head?_filter]

theorem heldMode_congr_others {t after : LockTable} {txn other : TxnId} {page : PageId}
    (same : others (after.holders page) txn = others (t.holders page) txn)
    (apart : other ≠ txn) : after.heldMode other page = t.heldMode other page := by
  rw [heldMode_eq_filter, heldMode_eq_filter, ← filter_others _ apart, same,
    filter_others _ apart]

/-- A transaction with the exclusive lock on a page shares it with nobody. -/
theorem heldMode_eq_none_of_exclusive {t : LockTable} {txn other : TxnId} {page : PageId}
    (ok : SideBySide (t.holders page)) (held : t.heldMode txn page = some .exclusive)
    (apart : other ≠ txn) : t.heldMode other page = none := by
  rw [heldMode_eq_none_iff, ok.alone (t.mem_of_heldMode txn held)]
  simpa using Ne.symm apart

/-! ## What a transaction gets and keeps -/

theorem find?_addHolder (holders : List Lock) (txn : TxnId) (mode : LockMode) :
    (addHolder holders txn mode).find? (fun l => decide (l.txn = txn)) = some ⟨txn, mode⟩ := by
  unfold addHolder
  split
  · rename_i present
    obtain ⟨held, there, own⟩ := List.any_eq_true.1 present
    have same : ((fun l : Lock => decide (l.txn = txn)) ∘
        fun l => if l.txn = txn then { l with mode } else l) = fun l => decide (l.txn = txn) := by
      funext l
      by_cases mine : l.txn = txn <;> simp [mine]
    rw [List.find?_map, same]
    cases found : holders.find? fun l => decide (l.txn = txn) with
    | none =>
        have absent := List.find?_eq_none.1 found held there
        exact absurd own absent
    | some l =>
        have mine : l.txn = txn := by simpa using List.find?_some found
        simp [mine]
  · rename_i absent
    rw [List.find?_append, List.find?_eq_none.2, Option.none_or]
    · simp
    · intro l there mine
      exact absent (List.any_eq_true.2 ⟨l, there, mine⟩)

/-- Whoever is granted a request holds a lock that serves it. -/
theorem heldMode_of_granted {t : LockTable} {txn : TxnId} {r : LockRequest}
    (granted : (t.request txn r).1 = .granted) :
    ∃ held, (t.request txn r).2.heldMode txn r.page = some held ∧ held.covers r.mode = true := by
  rcases t.request_cases txn r with
    ⟨serves, answer⟩ | ⟨-, ⟨-, answer⟩ | ⟨-, ⟨-, answer⟩ | ⟨-, answer⟩⟩⟩ <;> rw [answer] at granted ⊢
  · obtain ⟨held, found, covers⟩ := (Option.any_eq_true _ _).1 serves
    exact ⟨held, found, covers⟩
  · refine ⟨r.mode, ?_, by cases r.mode <;> rfl⟩
    rw [heldMode, holders_unregister, holders_grant, if_pos rfl, find?_addHolder]
    rfl
  · cases granted
  · cases granted

/-- An exclusive lock outlasts every request, its owner's own ones included. -/
theorem heldMode_request_exclusive {t : LockTable} {txn owner : TxnId} {r : LockRequest}
    {page : PageId} (held : t.heldMode owner page = some .exclusive) :
    (t.request txn r).2.heldMode owner page = some .exclusive := by
  by_cases own : owner = txn
  · subst own
    rcases t.holders_request owner r page with same | ⟨unserved, -, rfl, -⟩
    · rw [heldMode, same]
      exact held
    · rcases t.not_serves owner unserved with none | ⟨shared, -⟩
      · rw [held] at none
        cases none
      · rw [held] at shared
        cases shared
  · rw [heldMode_congr_others (t.others_request txn r page) own, held]

/-- Whoever has a lock on a page still has one after every request. -/
theorem heldMode_request_held {t : LockTable} {txn owner : TxnId} {r : LockRequest}
    {page : PageId} (held : ∃ mode, t.heldMode owner page = some mode) :
    ∃ mode, (t.request txn r).2.heldMode owner page = some mode := by
  by_cases own : owner = txn
  · subst own
    rcases t.holders_request owner r page with same | ⟨-, -, -, added⟩
    · rw [heldMode, same]
      exact held
    · exact ⟨r.mode, by rw [heldMode, added, find?_addHolder]; rfl⟩
  · rw [heldMode_congr_others (t.others_request txn r page) own]
    exact held

end LockTable

/-! ## Runs -/

namespace LockRoom

open LockTable

theorem sideBySide_run (calls : List LockCall) (page : PageId) :
    SideBySide ((run calls).table.holders page) := by
  refine run_induction (P := fun t => ∀ page, SideBySide (t.holders page)) ?_ ?_ ?_ ?_ ?_ calls page
  · exact fun _ => sideBySide_nil
  · exact fun view ok page => view.holders page ▸ ok page
  · exact fun _ txn r ok => sideBySide_request ok txn r
  · exact fun _ txn released ok => sideBySide_release ok txn released
  · exact fun _ txn ok => sideBySide_releaseAll ok txn

/-- A call changes no lock of a transaction other than its caller. -/
theorem others_step (room : LockRoom) (call : LockCall) {txn : TxnId}
    (calls : room.caller call = some txn) (page : PageId) :
    others ((room.step call).table.holders page) txn = others (room.table.holders page) txn := by
  rcases room.step_cases call with
    ⟨idle, -⟩ | ⟨owner, same, ⟨t, r, before, after⟩ | ⟨released, table⟩ | table⟩
  · rw [calls] at idle
    cases idle
  all_goals
    rw [calls, Option.some.injEq] at same
    subst same
  · rw [after.holders, others_request, before.holders]
  · rw [table, others_release]
  · rw [table, others_releaseAll]

/-- **Mutual exclusion.**  After every run the locks on each page are all shared and
belong to different transactions, or there is a single exclusive one; and no call
adds, removes, strengthens or weakens a lock of a transaction that does not make it. -/
theorem holders_run (calls : List LockCall) :
    (∀ page, SideBySide ((run calls).table.holders page)) ∧
      ∀ call txn, (run calls).caller call ≠ some txn → ∀ page,
        (((run calls).step call).table.holders page).filter (fun l => decide (l.txn = txn)) =
          ((run calls).table.holders page).filter fun l => decide (l.txn = txn) := by
  refine ⟨sideBySide_run calls, fun call txn apart page => ?_⟩
  cases caller : (run calls).caller call with
  | none =>
      rcases (run calls).step_cases call with ⟨-, same⟩ | ⟨owner, found, -⟩
      · rw [same]
      · rw [caller] at found
        cases found
  | some owner =>
      have other : txn ≠ owner := fun same => apart (same ▸ caller)
      rw [← filter_others _ other, others_step _ _ caller, filter_others _ other]

/-- A reader that asks for the exclusive lock while another reads waits, and goes on
alone when the other is gone; meanwhile the other's lock is untouched. -/
theorem holders_run_upgrade :
    let page : PageId := ⟨1, 0⟩
    let calls : List LockCall :=
      [.acquire ⟨1⟩ ⟨page, .shared⟩, .acquire ⟨2⟩ ⟨page, .shared⟩,
        .acquire ⟨1⟩ ⟨page, .exclusive⟩, .releaseAll ⟨2⟩]
    (run calls).caller (.resume 0) ≠ some ⟨2⟩ ∧
      ((run calls).step (.resume 0)).table.holders page = [⟨⟨1⟩, .exclusive⟩] ∧
      (((run calls).step (.resume 0)).table.holders page).filter
          (fun l => decide (l.txn = ⟨2⟩)) =
        ((run calls).table.holders page).filter fun l => decide (l.txn = ⟨2⟩) :=
  ⟨by decide_cbv, by cbv, (holders_run _).2 _ _ (by decide_cbv) _⟩

end LockRoom

end RowStore
