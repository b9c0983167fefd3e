/-
# RowStore.Proofs.Lock.Effects -- what each operation of the lock table does to it

The table is seen through three views: the locks that are held on a page
(`holders`), the registered requests (`waiting`) and the entry of a page.  Every
operation has one equation per view, and `request_cases` lists the four ways in
which an attempt to get a lock can end.  What is said of locks elsewhere is derived
from these and opens no operation again.

`others` is what a transaction cannot touch: no operation of `txn` changes
`others _ txn` on any page (`others_request`, `others_release`, `others_releaseAll`).
-/
import RowStore.Lock.Table

namespace RowStore

set_option autoImplicit false

theorem LockMode.covers_eq_false_iff {held wanted : LockMode} :
    held.covers wanted = false ↔ held = .shared ∧ wanted = .exclusive := by
  cases held <;> cases wanted <;> simp [covers]

theorem LockMode.exclusive_compatible (m : LockMode) : LockMode.exclusive.compatible m = false := by
  cases m <;> rfl

namespace LockTable

/-- The locks that belong to other transactions, in their order. -/
def others (holders : List Lock) (txn : TxnId) : List Lock :=
  holders.filter fun l => decide (l.txn ≠ txn)

theorem mem_others {holders : List Lock} {txn : TxnId} {l : Lock} :
    l ∈ others holders txn ↔ l ∈ holders ∧ l.txn ≠ txn := by
  simp [others]

/-- Without a lock of the transaction, all locks are those of others. -/
theorem others_eq_self {holders : List Lock} {txn : TxnId} (none : ∀ l ∈ holders, l.txn ≠ txn) :
    others holders txn = holders :=
  List.filter_eq_self.2 (by simpa using none)

theorem others_others (holders : List Lock) (txn : TxnId) :
    others (others holders txn) txn = others holders txn := by
  simp [others]

variable (t : LockTable) (txn : TxnId)

/-! ## Registrations -/

@[simp] theorem holders_empty (page : PageId) : empty.holders page = [] := rfl

@[simp] theorem holders_unregister (page : PageId) :
    (t.unregister txn).holders page = t.holders page := rfl

@[simp] theorem holders_register (r : LockRequest) (page : PageId) :
    (t.register txn r).holders page = t.holders page := rfl

@[simp] theorem waiting_unregister (a : TxnId) :
    (t.unregister txn).waiting.get? a = if a = txn then none else t.waiting.get? a :=
  FinMap.get?_erase _ _ _

@[simp] theorem waiting_register (r : LockRequest) (a : TxnId) :
    (t.register txn r).waiting.get? a = if a = txn then some r else t.waiting.get? a :=
  FinMap.get?_insert _ _ _ _

/-! ## Grants -/

@[simp] theorem waiting_grant (r : LockRequest) : (t.grant txn r).waiting = t.waiting := by
  unfold grant
  split <;> rfl

theorem holders_grant (r : LockRequest) (page : PageId) :
    (t.grant txn r).holders page =
      if page = r.page then addHolder (t.holders r.page) txn r.mode else t.holders page := by
  unfold grant holders
  cases found : t.pages.get? r.page with
  | none => by_cases same : page = r.page <;> simp [same, addHolder]
  | some entry => by_cases same : page = r.page <;> simp [same]

theorem mem_addHolder {holders : List Lock} {mode : LockMode} {l : Lock}
    (member : l ∈ addHolder holders txn mode) :
    l ∈ holders ∧ l.txn ≠ txn ∨ l = ⟨txn, mode⟩ := by
  unfold addHolder at member
  split at member
  · obtain ⟨held, there, rfl⟩ := List.mem_map.1 member
    by_cases own : held.txn = txn
    · exact Or.inr (by simp [own])
    · exact Or.inl (by simpa [own] using there)
  · rename_i absent
    rcases List.mem_append.1 member with there | last
    · exact Or.inl ⟨there, fun own => absent (List.any_eq_true.2 ⟨l, there, by simpa using own⟩)⟩
    · exact Or.inr (by simpa using last)

theorem self_mem_addHolder (holders : List Lock) (mode : LockMode) :
    (⟨txn, mode⟩ : Lock) ∈ addHolder holders txn mode := by
  unfold addHolder
  split
  · rename_i present
    obtain ⟨held, there, own⟩ := List.any_eq_true.1 present
    simp only [decide_eq_true_eq] at own
    exact List.mem_map.2 ⟨held, there, by simp [own]⟩
  · simp

theorem others_strengthen (holders : List Lock) (mode : LockMode) :
    others (holders.map fun l => if l.txn = txn then { l with mode } else l) txn =
      others holders txn := by
  induction holders with
  | nil => rfl
  | cons l rest ih =>
      unfold others at ih ⊢
      by_cases own : l.txn = txn <;> simp [own] at ih ⊢ <;> exact ih

/-- A grant changes no lock of another transaction. -/
theorem others_addHolder (holders : List Lock) (mode : LockMode) :
    others (addHolder holders txn mode) txn = others holders txn := by
  unfold addHolder
  split
  · exact others_strengthen txn holders mode
  · simp [others]

/-! ## Requests -/

theorem heldMode_eq_none_iff {page : PageId} :
    t.heldMode txn page = none ↔ ∀ l ∈ t.holders page, l.txn ≠ txn := by
  simp [heldMode]

theorem mem_of_heldMode {page : PageId} {mode : LockMode}
    (held : t.heldMode txn page = some mode) : (⟨txn, mode⟩ : Lock) ∈ t.holders page := by
  obtain ⟨l, found, rfl⟩ := Option.map_eq_some_iff.1 held
  have own : l.txn = txn := by simpa using List.find?_some found
  exact own ▸ List.mem_of_find?_eq_some found

theorem mem_blockers {r : LockRequest} {other : TxnId} :
    other ∈ t.blockers txn r ↔
      ∃ l ∈ t.holders r.page, l.txn = other ∧ l.txn ≠ txn ∧ l.mode.compatible r.mode = false := by
  simp only [blockers, List.mem_map, List.mem_filter, Bool.and_eq_true, decide_eq_true_eq,
    Bool.not_eq_true']
  constructor
  · rintro ⟨l, ⟨there, apart, against⟩, rfl⟩
    exact ⟨l, there, rfl, apart, against⟩
  · rintro ⟨l, there, rfl, apart, against⟩
    exact ⟨l, ⟨there, apart, against⟩, rfl⟩

/-- Whether the transaction already has all that the request asks for. -/
def serves (r : LockRequest) : Bool := (t.heldMode txn r.page).any fun held => held.covers r.mode

/-- A transaction that is not served has no lock on the page, or a shared one where it
asks for an exclusive one. -/
theorem not_serves {r : LockRequest} (unserved : t.serves txn r = false) :
    t.heldMode txn r.page = none ∨ t.heldMode txn r.page = some .shared ∧ r.mode = .exclusive := by
  unfold serves at unserved
  cases held : t.heldMode txn r.page with
  | none => exact Or.inl rfl
  | some mode =>
      rw [held, Option.any_some, LockMode.covers_eq_false_iff] at unserved
      exact Or.inr ⟨by rw [unserved.1], unserved.2⟩

/-- **The four ends of an attempt.** -/
theorem request_cases (r : LockRequest) :
    (t.serves txn r = true ∧ t.request txn r = (.granted, t.unregister txn)) ∨
      t.serves txn r = false ∧
        ((t.blockers txn r = [] ∧ t.request txn r = (.granted, (t.grant txn r).unregister txn)) ∨
          t.blockers txn r ≠ [] ∧
            ((t.waitCloses txn (t.blockers txn r) = true ∧
                t.request txn r = (.deadlock, t.unregister txn)) ∨
              t.waitCloses txn (t.blockers txn r) = false ∧
                t.request txn r = (.wait, t.register txn r))) := by
  unfold request serves
  cases (t.heldMode txn r.page).any fun held => held.covers r.mode with
  | true => exact Or.inl ⟨rfl, rfl⟩
  | false =>
      refine Or.inr ⟨rfl, ?_⟩
      by_cases free : t.blockers txn r = []
      · exact Or.inl ⟨free, by simp [free]⟩
      · refine Or.inr ⟨free, ?_⟩
        cases closes : t.waitCloses txn (t.blockers txn r) with
        | true => exact Or.inl ⟨rfl, by simp [free, closes]⟩
        | false => exact Or.inr ⟨rfl, by simp [free, closes]⟩

/-- An attempt grants the requested lock or changes no lock at all. -/
theorem holders_request (r : LockRequest) (page : PageId) :
    (t.request txn r).2.holders page = t.holders page ∨
      t.serves txn r = false ∧ t.blockers txn r = [] ∧ page = r.page ∧
        (t.request txn r).2.holders page = addHolder (t.holders page) txn r.mode := by
  rcases t.request_cases txn r with ⟨-, same⟩ | ⟨unserved, ⟨free, same⟩ | ⟨-, ⟨-, same⟩ | ⟨-, same⟩⟩⟩
  · exact Or.inl (by rw [same]; rfl)
  · rw [same, holders_unregister, holders_grant]
    by_cases here : page = r.page
    · exact Or.inr ⟨unserved, free, here, by simp [here]⟩
    · exact Or.inl (by simp [here])
  · exact Or.inl (by rw [same]; rfl)
  · exact Or.inl (by rw [same]; rfl)

theorem others_request (r : LockRequest) (page : PageId) :
    others ((t.request txn r).2.holders page) txn = others (t.holders page) txn := by
  rcases t.holders_request txn r page with same | ⟨-, -, -, same⟩
  · rw [same]
  · rw [same, others_addHolder]

/-! ## Releases -/

@[simp] theorem holders_sweep (swept page : PageId) :
    (t.sweep swept).holders page = t.holders page := by
  unfold sweep
  cases found : t.pages.get? swept with
  | none => rfl
  | some entry =>
      dsimp only
      split
      · rename_i idle
        have bare : entry.holders = [] := by
          simp only [LockEntry.isIdle, Bool.and_eq_true, List.isEmpty_iff] at idle
          exact idle.1
        by_cases same : page = swept <;> simp [holders, same, found, bare]
      · rfl

@[simp] theorem waiting_sweep (swept : PageId) : (t.sweep swept).waiting = t.waiting := by
  unfold sweep
  split
  · split <;> rfl
  · rfl

theorem holders_release (released page : PageId) :
    (t.release txn released).2.holders page =
      if page = released then others (t.holders released) txn else t.holders page := by
  unfold release
  cases found : t.pages.get? released with
  | none =>
      have bare : t.holders released = [] := by simp [holders, found]
      by_cases same : page = released <;> simp [same, bare, others]
  | some entry =>
      have held : t.holders released = entry.holders := by simp [holders, found]
      rw [holders_sweep, held]
      by_cases same : page = released <;> simp [holders, others, same]

@[simp] theorem waiting_release (released : PageId) :
    (t.release txn released).2.waiting = t.waiting := by
  unfold release
  split
  · rfl
  · simp

theorem others_release (released page : PageId) :
    others ((t.release txn released).2.holders page) txn = others (t.holders page) txn := by
  rw [holders_release]
  split
  · rename_i same
    rw [same, others_others]
  · rfl

theorem mem_heldPages {page : PageId} :
    page ∈ t.heldPages txn ↔ ∃ l ∈ t.holders page, l.txn = txn := by
  unfold heldPages
  simp only [List.mem_map, List.mem_filter, List.any_eq_true, decide_eq_true_eq]
  constructor
  · rintro ⟨⟨p, entry⟩, ⟨listed, own⟩, rfl⟩
    simpa [holders, FinMap.mem_entries.1 listed] using own
  · intro own
    cases found : t.pages.get? page with
    | none => simp [holders, found] at own
    | some entry =>
        simp only [holders, found] at own
        exact ⟨(page, entry), ⟨FinMap.mem_entries.2 found, own⟩, rfl⟩

/-- Releasing pages one after the other releases those and no others. -/
theorem holders_foldl_release (pages : List PageId) (page : PageId) :
    (pages.foldl (fun table p => (table.release txn p).2) t).holders page =
      if page ∈ pages then others (t.holders page) txn else t.holders page := by
  induction pages generalizing t with
  | nil => rfl
  | cons p rest ih =>
      rw [List.foldl_cons, ih, holders_release]
      by_cases here : page = p
      · subst here
        simp [others_others]
      · simp [here]

@[simp] theorem waiting_foldl_release (pages : List PageId) :
    (pages.foldl (fun table p => (table.release txn p).2) t).waiting = t.waiting := by
  induction pages generalizing t with
  | nil => rfl
  | cons p rest ih => rw [List.foldl_cons, ih, waiting_release]

/-- After releasing all, exactly the locks of the others are left on every page. -/
theorem holders_releaseAll (page : PageId) :
    (t.releaseAll txn).2.holders page = others (t.holders page) txn := by
  unfold releaseAll
  rw [holders_foldl_release, holders_unregister]
  split
  · rfl
  · rename_i unlisted
    refine (others_eq_self fun l there own => unlisted ?_).symm
    exact (t.mem_heldPages txn).2 ⟨l, there, own⟩

theorem waiting_releaseAll (a : TxnId) :
    (t.releaseAll txn).2.waiting.get? a = if a = txn then none else t.waiting.get? a := by
  unfold releaseAll
  rw [waiting_foldl_release, waiting_unregister]

theorem others_releaseAll (page : PageId) :
    others ((t.releaseAll txn).2.holders page) txn = others (t.holders page) txn := by
  rw [holders_releaseAll, others_others]

/-- A transaction without locks and without a pending request has nothing to release. -/
theorem releaseAll_of_free (free : ∀ page, others (t.holders page) txn = t.holders page)
    (calm : t.waiting.get? txn = none) : (t.releaseAll txn).2 = t := by
  have bare : t.heldPages txn = [] := by
    refine List.eq_nil_iff_forall_not_mem.2 fun page held => ?_
    obtain ⟨l, there, own⟩ := (t.mem_heldPages txn).1 held
    rw [← free page] at there
    exact (mem_others.1 there).2 own
  unfold releaseAll unregister
  simp only [bare, List.foldl_nil, FinMap.erase_of_get?_eq_none calm]

end LockTable

end RowStore
