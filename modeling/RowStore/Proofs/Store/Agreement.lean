/-
# RowStore.Proofs.Store.Agreement -- files and pool hold what the ledger says

`Agrees` ties a store to a ledger.  Every page of a table file holds the committed rows
of that page, and no row is committed elsewhere.  A clean resident page is the page on
disk, and a page marked by a transaction holds what this transaction sees.  The edits
that a transaction has not committed lie on pages that are resident and carry its
mark, so eviction cannot lose them and dropping these pages undoes them.

Each step of the store keeps the agreement with the ledger that the step leads to: a
move with the same one, an edit with the edit noted (`Agrees.edits`), a flushed page
with the page settled, and the end of a transaction with it finished
(`Agrees.complete`).  A transaction that holds a lock on a page finds there what it
should see (`Agrees.seen`).

Only the growth of a file depends on its length: the count of its pages must not
start again from zero.
-/
import RowStore.Proofs.Store.Completion
import RowStore.Proofs.Store.Ledger

namespace RowStore

set_option autoImplicit false

open Relation Store

structure Ledger.Agrees (ℓ : Ledger) (s : Store) : Prop where
  within : ∀ id frame file, s.pool.resident? id = some frame →
    s.catalog.file id.table = .ok file → id.number < s.pageCount file
  clean : ∀ id frame file, s.pool.resident? id = some frame →
    s.catalog.file id.table = .ok file → frame.page.mark = none →
    frame.page.image = s.imageAt file id.number
  stored : ∀ id file, s.catalog.file id.table = .ok file → id.number < s.pageCount file →
    ∃ page, s.readFromDisk file id = .ok page ∧ ∀ slot, page.at? slot = ℓ.committed ⟨id, slot⟩
  inside : ∀ id values, ℓ.committed id = some values →
    ∃ file, s.catalog.file id.page.table = .ok file ∧ id.page.number < s.pageCount file
  changed : ∀ id frame txn, s.pool.resident? id = some frame → frame.page.mark = some txn →
    ∀ slot, frame.page.at? slot = ℓ.view txn ⟨id, slot⟩
  pending : ∀ txn, ∀ e ∈ ℓ.pending txn, ∃ frame,
    s.pool.resident? e.id.page = some frame ∧ frame.page.mark = some txn

namespace Ledger

variable {ℓ : Ledger} {txn : TxnId} {s after : Store}

/-! ## What a transaction finds on a page -/

/-- A clean resident page is what a read from disk gives. -/
theorem Agrees.read_of_clean (agrees : ℓ.Agrees s) (ok : s.Orderly) {id : PageId} {frame : Frame}
    (there : s.pool.resident? id = some frame) (unmarked : frame.page.mark = none) :
    ∃ file, s.catalog.file id.table = .ok file ∧ s.readFromDisk file id = .ok frame.page := by
  obtain ⟨file, registered, schema, -, sound⟩ := ok.belongs id frame there
  have named := (ok.pool.resident?_id there).2
  have image := agrees.clean id frame file there registered unmarked
  refine ⟨file, registered, readFromDisk_eq_ok_iff.2 ⟨?_, ?_, ?_, sound⟩⟩
  · exact (ok.tables _ file registered).1.symm
  · exact agrees.within id frame file there registered
  · rw [← image, ← schema, ← named, ← unmarked]

/-- Rows of a page that does not carry a transaction's mark are as committed for it. -/
theorem Agrees.view_of_unmarked (agrees : ℓ.Agrees s) {id : RecordId}
    (unmarked : ∀ frame, s.pool.resident? id.page = some frame → frame.page.mark ≠ some txn) :
    ℓ.view txn id = ℓ.committed id := by
  refine Edit.applyAll_of_untouched fun e member same => ?_
  obtain ⟨frame, there, marked⟩ := agrees.pending txn e member
  rw [same] at there
  exact unmarked frame there marked

/-- **What a transaction finds** on a page that it has locked is what it should see. -/
theorem Agrees.seen (agrees : ℓ.Agrees s) (ok : s.Orderly) {id : PageId} {frame : Frame}
    (there : s.pool.resident? id = some frame) (holds : s.Holds txn id) (slot : Nat) :
    frame.page.at? slot = ℓ.view txn ⟨id, slot⟩ := by
  rcases ok.mark_of_holds there holds with unmarked | own
  · obtain ⟨file, registered, read⟩ := agrees.read_of_clean ok there unmarked
    obtain ⟨page, stored, same⟩ := agrees.stored id file registered
      (agrees.within id frame file there registered)
    rw [read] at stored
    cases stored
    rw [same, agrees.view_of_unmarked]
    intro held found marked
    rw [there] at found
    cases found
    rw [unmarked] at marked
    cases marked
  · exact agrees.changed id frame txn there own slot

/-- What a transaction sees lies within the files. -/
theorem Agrees.view_inside (agrees : ℓ.Agrees s) (ok : s.Orderly) {id : RecordId}
    {values : List Value} (seen : ℓ.view txn id = some values) :
    ∃ file, s.catalog.file id.page.table = .ok file ∧ id.page.number < s.pageCount file := by
  by_cases touched : ∃ frame, s.pool.resident? id.page = some frame ∧ frame.page.mark = some txn
  · obtain ⟨frame, there, -⟩ := touched
    obtain ⟨file, registered, -⟩ := ok.belongs id.page frame there
    exact ⟨file, registered, agrees.within _ frame file there registered⟩
  · rw [agrees.view_of_unmarked fun frame there marked => touched ⟨frame, there, marked⟩] at seen
    exact agrees.inside id values seen

/-! ## Moves -/

theorem Agrees.turn (agrees : ℓ.Agrees s) {pool : Pool}
    (each : ∀ id, s.Turnover txn pool id) : ℓ.Agrees { s with pool } := by
  -- A page that is resident now was resident before, or it comes from disk.
  have origin : ∀ id frame, pool.resident? id = some frame → s.pool.resident? id = some frame ∨
      ∃ file, s.catalog.file id.table = .ok file ∧ s.readFromDisk file id = .ok frame.page := by
    intro id frame there
    rcases each id with same | ⟨gone, -, -⟩ | ⟨-, -, registered, read, now⟩
    · exact Or.inl (same ▸ there)
    · rw [gone] at there
      cases there
    · rw [now] at there
      cases there
      exact Or.inr ⟨_, registered, read⟩
  refine ⟨?_, ?_, agrees.stored, agrees.inside, ?_, ?_⟩
  · intro id frame file there registered
    rcases origin id frame there with before | ⟨held, listed, read⟩
    · exact agrees.within id frame file before registered
    · have same : held = file := Except.ok.inj (listed.symm.trans registered)
      subst same
      exact (readFromDisk_eq_ok_iff.1 read).2.1
  · intro id frame file there registered unmarked
    rcases origin id frame there with before | ⟨held, listed, read⟩
    · exact agrees.clean id frame file before registered unmarked
    · have same : held = file := Except.ok.inj (listed.symm.trans registered)
      subst same
      rw [(readFromDisk_eq_ok_iff.1 read).2.2.1]
      rfl
  · intro id frame owner there marked
    rcases origin id frame there with before | ⟨held, listed, read⟩
    · exact agrees.changed id frame owner before marked
    · rw [(readFromDisk_eq_ok_iff.1 read).2.2.1] at marked
      cases marked
  · intro owner e member
    obtain ⟨frame, there, marked⟩ := agrees.pending owner e member
    refine ⟨frame, ?_, marked⟩
    rcases each e.id.page with same | ⟨-, was, clean⟩ | ⟨absent, -, -, -, -⟩
    · exact same.trans there
    · rw [there] at was
      cases was
      simp [Page.isDirty, marked] at clean
    · rw [there] at absent
      cases absent

theorem Agrees.grow (agrees : ℓ.Agrees s) (ok : s.Orderly) {table : TableId} {file : TableFile}
    (registered : s.catalog.file table = .ok file) (bounded : (s.grown file).Bounded) :
    ℓ.Agrees (s.grown file) := by
  have more : ∀ other held, s.catalog.file other = .ok held →
      s.pageCount held ≤ (s.grown file).pageCount held :=
    fun _ held listed =>
      have counts : ¬ (s.grown file).Wrapped held := Bounded.not_wrapped bounded listed
      pageCount_le_grown ok.tables registered listed counts
  have images : ∀ other held number, s.catalog.file other = .ok held → number < s.pageCount held →
      (s.grown file).imageAt held number = s.imageAt held number :=
    fun _ _ _ listed inside => imageAt_grown ok.tables registered listed inside
  refine ⟨?_, ?_, ?_, ?_, agrees.changed, agrees.pending⟩
  · intro id frame held there listed
    exact Nat.lt_of_lt_of_le (agrees.within id frame held there listed) (more _ held listed)
  · intro id frame held there listed unmarked
    rw [images _ held id.number listed (agrees.within id frame held there listed)]
    exact agrees.clean id frame held there listed unmarked
  · intro id held listed inside
    by_cases old : id.number < s.pageCount held
    · obtain ⟨page, read, contents⟩ := agrees.stored id held listed old
      obtain ⟨own, -, made, sound⟩ := readFromDisk_eq_ok_iff.1 read
      refine ⟨page, readFromDisk_eq_ok_iff.2 ⟨own, inside, ?_, sound⟩, contents⟩
      rw [images _ held id.number listed old]
      exact made
    · -- It is the new page, and nothing is committed there yet.
      have own : held = file := by
        by_contra apart
        rw [pageCount_grown_ne ok.tables registered listed apart] at inside
        exact old inside
      subst own
      obtain ⟨count, image⟩ := pageCount_grown ok.tables registered bounded
      have last : id.number = s.pageCount held := by omega
      have proper := (ok.tables _ held listed).2
      refine ⟨⟨id, held.schema, Image.zeros held.pageSize, none⟩, ?_, fun slot => ?_⟩
      · refine readFromDisk_eq_ok_iff.2 ⟨?_, inside, by rw [last, image], ?_⟩
        · exact (ok.tables _ held listed).1.symm
        · exact Page.sound_zeros id proper.wide proper.roomy proper.addressed
      · rw [Page.at?_zeros]
        cases absent : ℓ.committed ⟨id, slot⟩ with
        | none => rfl
        | some values =>
            obtain ⟨found, again, before⟩ := agrees.inside _ values absent
            have equal : found = held := Except.ok.inj (again.symm.trans listed)
            subst equal
            exact absurd before old
  · intro id values committed
    obtain ⟨held, listed, inside⟩ := agrees.inside id values committed
    exact ⟨held, listed, Nat.lt_of_lt_of_le inside (more _ held listed)⟩

theorem Agrees.move (agrees : ℓ.Agrees s) (ok : s.Orderly) (move : Move txn s after)
    (bounded : after.Bounded) : ℓ.Agrees after := by
  cases move with
  | request r =>
      exact ⟨agrees.within, agrees.clean, agrees.stored, agrees.inside, agrees.changed,
        agrees.pending⟩
  | turn _ _ each => exact agrees.turn each
  | grow registered _ => exact agrees.grow ok registered bounded

theorem Agrees.walks (agrees : ℓ.Agrees s) (ok : s.Orderly) (walk : s.Walks txn after)
    (bounded : after.Bounded) : ℓ.Agrees after := by
  induction walk with
  | refl => exact agrees
  | tail first move ih => exact (ih (move.grows.bounded bounded)).move (ok.walks first) move bounded

/-! ## Edits -/

section

variable {frame : Frame} {page : Page} {e : Edit}

/-- The edits of each transaction are still marked, the new one included. -/
theorem Agrees.pending_replaces (agrees : ℓ.Agrees s) (ok : s.Orderly)
    (there : s.pool.resident? frame.id = some frame) (holds : s.Holds txn frame.id)
    (replaces : s.Replaces after { frame with page := page.withMark (some txn) })
    (own : e.id.page = frame.id) {owner : TxnId} {f : Edit}
    (member : f ∈ (ℓ.note txn e).pending owner) :
    ∃ now, after.pool.resident? f.id.page = some now ∧ now.page.mark = some owner := by
  have residents := replaces.residents f.id.page
  have kept : f ∈ ℓ.pending owner → ∃ now, after.pool.resident? f.id.page = some now ∧
      now.page.mark = some owner := by
    intro old
    obtain ⟨now, found, marked⟩ := agrees.pending owner f old
    by_cases here : f.id.page = frame.id
    · -- Whoever has changed this page before is the transaction itself.
      rw [here, there] at found
      cases found
      rw [ok.owner_eq there holds marked]
      rw [if_pos here] at residents
      exact ⟨_, residents, rfl⟩
    · rw [if_neg here] at residents
      exact ⟨now, residents.trans found, marked⟩
  unfold note at member
  by_cases mine : owner = txn
  · subst mine
    simp only [if_true] at member
    rcases List.mem_append.1 member with old | new
    · exact kept old
    · rw [List.mem_singleton.1 new] at residents ⊢
      rw [if_pos own] at residents
      exact ⟨_, residents, rfl⟩
  · simp only [mine, if_false] at member
    exact kept member

/-- A page with changes holds what its transaction sees, the new edit included. -/
theorem Agrees.changed_replaces (agrees : ℓ.Agrees s) (ok : s.Orderly)
    (there : s.pool.resident? frame.id = some frame) (holds : s.Holds txn frame.id)
    (replaces : s.Replaces after { frame with page := page.withMark (some txn) })
    (own : e.id.page = frame.id)
    (contents : ∀ slot, page.at? slot = if slot = e.id.slot then e.entry else frame.page.at? slot)
    {id : PageId} {now : Frame} {owner : TxnId} (found : after.pool.resident? id = some now)
    (marked : now.page.mark = some owner) (slot : Nat) :
    now.page.at? slot = (ℓ.note txn e).view owner ⟨id, slot⟩ := by
  rcases replaces.resident_cases found with ⟨rfl, rfl⟩ | ⟨elsewhere, before⟩
  · cases marked
    show page.at? slot = _
    rw [contents, view_note, Edit.apply_page own, agrees.seen ok there holds]
  · rw [agrees.changed id now owner before marked slot]
    by_cases mine : owner = txn
    · subst mine
      rw [view_note, Edit.apply_elsewhere (own ▸ elsewhere)]
    · rw [view_note_ne _ _ _ mine]

/-- **Exchanging a page** that a transaction has to itself for a version with one slot
changed is the edit of that slot. -/
theorem Agrees.replaces (agrees : ℓ.Agrees s) (ok : s.Orderly)
    (there : s.pool.resident? frame.id = some frame) (holds : s.Holds txn frame.id)
    (replaces : s.Replaces after { frame with page := page.withMark (some txn) })
    (own : e.id.page = frame.id)
    (contents : ∀ slot, page.at? slot = if slot = e.id.slot then e.entry else frame.page.at? slot) :
    (ℓ.note txn e).Agrees after := by
  obtain ⟨pool, rfl⟩ := replaces.store
  refine ⟨fun id now file found registered => ?_, fun id now file found registered unmarked => ?_,
    agrees.stored, agrees.inside, fun _ _ _ found marked => ?_, fun _ _ member => ?_⟩
  · rcases replaces.resident_cases found with ⟨rfl, rfl⟩ | ⟨-, before⟩
    · exact agrees.within _ frame file there registered
    · exact agrees.within id now file before registered
  · rcases replaces.resident_cases found with ⟨rfl, rfl⟩ | ⟨-, before⟩
    · cases unmarked
    · exact agrees.clean id now file before registered unmarked
  · exact agrees.changed_replaces ok there holds replaces own contents found marked
  · exact agrees.pending_replaces ok there holds replaces own member

end

theorem Agrees.edits (agrees : ℓ.Agrees s) (ok : s.Orderly) {frame : Frame} {page : Page}
    {e : Edit} (edits : Edits txn s after frame (page.withMark (some txn)))
    (own : e.id.page = frame.id)
    (alters : frame.page.Sound → frame.page.Alters page e.id.slot e.entry)
    (bounded : after.Bounded) : (ℓ.note txn e).Agrees after := by
  obtain ⟨mid, walk, there, held, replaces⟩ := edits
  have before := ok.walks walk
  obtain ⟨file, -, -, -, sound⟩ := before.belongs frame.id frame there
  have mid_bounded := replaces.grows.bounded bounded
  have agreed := agrees.walks ok walk mid_bounded
  exact agreed.replaces before there ⟨_, held⟩ replaces own (alters sound).at?

/-! ## The end of a transaction -/

theorem Agrees.written (agrees : ℓ.Agrees s) (ok : s.Orderly) (flush : Flush txn s after) :
    ∃ frame file, Written txn s after frame file :=
  written_of_flush ok flush fun id frame file there registered =>
    Nat.lt_of_lt_of_le (agrees.within id frame file there registered) (s.pageCount_le file)

section

variable {frame : Frame} {file : TableFile}

/-- The page that was written has the rows that its transaction saw; the other pages of
the files are as before. -/
theorem Agrees.stored_written (agrees : ℓ.Agrees s) (written : Written txn s after frame file)
    {id : PageId} {held : TableFile} (listed : s.catalog.file id.table = .ok held)
    (within : id.number < s.pageCount held) :
    ∃ page, after.readFromDisk held id = .ok page ∧
      ∀ slot, page.at? slot = (ℓ.settle txn frame.id).committed ⟨id, slot⟩ := by
  have count := written.pageCount_eq listed
  have image := written.images id held listed
  by_cases here : id = frame.id
  · subst here
    have same : held = file := Except.ok.inj (listed.symm.trans written.registered)
    subst same
    rw [if_pos rfl] at image
    refine ⟨frame.page.withMark none, readFromDisk_eq_ok_iff.2 ⟨written.own, ?_, ?_,
      written.sound.withMark none⟩, fun slot => ?_⟩
    · rw [count]
      exact within
    · rw [image]
      exact written.loads
    · rw [settle]
      simp only [if_true]
      exact agrees.changed frame.id frame txn written.there written.marked slot
  · obtain ⟨page, read, rows⟩ := agrees.stored id held listed within
    obtain ⟨own, -, made, fine⟩ := readFromDisk_eq_ok_iff.1 read
    rw [if_neg here] at image
    refine ⟨page, readFromDisk_eq_ok_iff.2 ⟨own, ?_, ?_, fine⟩, fun slot => ?_⟩
    · rw [count]
      exact within
    · rw [image]
      exact made
    · rw [rows, settle]
      simp only [here, if_false]

/-- What is left to commit lies on other pages. -/
theorem Agrees.pending_written (agrees : ℓ.Agrees s) (written : Written txn s after frame file)
    {owner : TxnId} {e : Edit} (member : e ∈ (ℓ.settle txn frame.id).pending owner) :
    e ∈ ℓ.pending owner ∧ e.id.page ≠ frame.id := by
  unfold settle at member
  by_cases mine : owner = txn
  · simp only [mine, if_true] at member
    have kept := List.mem_filter.1 member
    exact ⟨mine ▸ kept.1, by simpa using kept.2⟩
  · simp only [mine, if_false] at member
    refine ⟨member, fun here => ?_⟩
    obtain ⟨now, found, carries⟩ := agrees.pending owner e member
    rw [here, written.there] at found
    cases found
    rw [written.marked] at carries
    cases carries
    exact mine rfl

/-- **Writing a page back** commits the edits of its transaction on that page. -/
theorem Agrees.settle_written (agrees : ℓ.Agrees s) (written : Written txn s after frame file) :
    (ℓ.settle txn frame.id).Agrees after := by
  refine ⟨fun id now held found listed => ?_, fun id now held found listed unmarked => ?_,
    fun id held listed within => ?_, fun id values committed => ?_,
    fun id now owner found carries slot => ?_, fun owner e member => ?_⟩
  · rw [written.catalog] at listed
    rw [written.pageCount_eq listed]
    rcases written.resident_cases found with ⟨rfl, rfl⟩ | ⟨-, before⟩
    · exact agrees.within _ frame held written.there listed
    · exact agrees.within id now held before listed
  · rw [written.catalog] at listed
    rw [written.images id held listed]
    rcases written.resident_cases found with ⟨rfl, rfl⟩ | ⟨elsewhere, before⟩
    · exact (if_pos rfl).symm
    · rw [if_neg elsewhere]
      exact agrees.clean id now held before listed unmarked
  · rw [written.catalog] at listed
    rw [written.pageCount_eq listed] at within
    exact agrees.stored_written written listed within
  · rw [written.catalog]
    by_cases here : id.page = frame.id
    · refine ⟨file, here ▸ written.registered, ?_⟩
      rw [here, written.pageCount_eq written.registered]
      exact agrees.within _ frame file written.there written.registered
    · simp only [settle, here, if_false] at committed
      obtain ⟨held, listed, within⟩ := agrees.inside id values committed
      exact ⟨held, listed, by rw [written.pageCount_eq listed]; exact within⟩
  · rcases written.resident_cases found with ⟨-, rfl⟩ | ⟨elsewhere, before⟩
    · cases carries
    · rw [agrees.changed id now owner before carries slot]
      by_cases mine : owner = txn
      · rw [mine, view_settle]
      · rw [view_settle_ne _ _ _ mine elsewhere]
  · obtain ⟨old, elsewhere⟩ := agrees.pending_written written member
    obtain ⟨now, found, carries⟩ := agrees.pending owner e old
    exact ⟨now, by rw [written.residents, if_neg elsewhere, found], carries⟩

end

theorem Agrees.flushes (agrees : ℓ.Agrees s) (ok : s.Orderly)
    (flushes : ReflTransGen (Flush txn) s after) :
    ∃ settled : Ledger, settled.Agrees after ∧ settled.view txn = ℓ.view txn ∧
      ∀ other, other ≠ txn → settled.pending other = ℓ.pending other := by
  induction flushes with
  | refl => exact ⟨ℓ, agrees, rfl, fun _ _ => rfl⟩
  | tail first flush ih =>
      obtain ⟨settled, agreed, view, others⟩ := ih
      obtain ⟨frame, file, written⟩ := agreed.written (ok.flushes first) flush
      refine ⟨settled.settle txn frame.id, agreed.settle_written written, ?_,
        fun other apart => ?_⟩
      · rw [view_settle, view]
      · rw [← others other apart]
        exact if_neg apart

/-- Pages are written back to their places, so no file gets longer. -/
theorem Agrees.wholePages_flushes (agrees : ℓ.Agrees s) (ok : s.Orderly)
    (flushes : ReflTransGen (Flush txn) s after) {table : TableId} {file : TableFile}
    (registered : s.catalog.file table = .ok file) :
    after.wholePages file = s.wholePages file := by
  induction flushes with
  | refl => rfl
  | @tail mid last first flush ih =>
      obtain ⟨settled, agreed, -⟩ := agrees.flushes ok first
      have listed : mid.catalog.file table = .ok file := by
        rw [(grows_flushes first).catalog, registered]
      obtain ⟨frame, held, written⟩ := agreed.written (ok.flushes first) flush
      rw [written.lengths table file listed, ih]

theorem Agrees.bounded_flushes (agrees : ℓ.Agrees s) (ok : s.Orderly)
    (flushes : ReflTransGen (Flush txn) s after) (bounded : s.Bounded) : after.Bounded := by
  intro table file registered
  have before : s.catalog.file table = .ok file := (grows_flushes flushes).catalog ▸ registered
  rw [agrees.wholePages_flushes ok flushes before]
  exact bounded table file before

/-- Locks are no part of the agreement. -/
theorem Agrees.withLocks (agrees : ℓ.Agrees s) (locks : LockTable) :
    ℓ.Agrees { s with locks } :=
  ⟨agrees.within, agrees.clean, agrees.stored, agrees.inside, agrees.changed, agrees.pending⟩

theorem Agrees.commit (agrees : ℓ.Agrees s) (ok : s.Orderly)
    (flushes : ReflTransGen (Flush txn) s after)
    (clean : ∀ id frame, after.pool.resident? id = some frame → frame.page.mark ≠ some txn) :
    (ℓ.finish txn true).Agrees after := by
  obtain ⟨settled, agreed, view, others⟩ := agrees.flushes ok flushes
  have none : settled.pending txn = [] := by
    refine List.eq_nil_iff_forall_not_mem.2 fun e member => ?_
    obtain ⟨frame, there, marked⟩ := agreed.pending txn e member
    exact clean _ frame there marked
  rw [← eq_finish_of_settled view none others]
  exact agreed

theorem Agrees.rollback (agrees : ℓ.Agrees s) {pool : Pool}
    (residents : ∀ id, pool.resident? id =
      (s.pool.resident? id).filter fun frame => decide (frame.page.mark ≠ some txn)) :
    (ℓ.finish txn false).Agrees { s with pool } := by
  have kept : ∀ id frame, pool.resident? id = some frame ↔
      s.pool.resident? id = some frame ∧ frame.page.mark ≠ some txn := by
    intro id frame
    rw [residents, Option.filter_eq_some_iff]
    simp
  refine ⟨?_, ?_, agrees.stored, agrees.inside, ?_, ?_⟩
  · intro id frame file there
    exact agrees.within id frame file ((kept id frame).1 there).1
  · intro id frame file there
    exact agrees.clean id frame file ((kept id frame).1 there).1
  · intro id frame owner there marked slot
    obtain ⟨before, unmarked⟩ := (kept id frame).1 there
    have apart : owner ≠ txn := fun same => unmarked (same ▸ marked)
    rw [view_rollback_ne _ _ apart]
    exact agrees.changed id frame owner before marked slot
  · intro owner e member
    by_cases mine : owner = txn
    · simp [finish, mine] at member
    · have member' : e ∈ ℓ.pending owner := by simpa [finish, mine] using member
      obtain ⟨frame, there, marked⟩ := agrees.pending owner e member'
      refine ⟨frame, (kept _ frame).2 ⟨there, fun own => mine ?_⟩, marked⟩
      rw [marked] at own
      cases own
      rfl

/-- **The end of a transaction** in the store is its end in the ledger. -/
theorem Agrees.complete (agrees : ℓ.Agrees s) (ok : s.Orderly) (txn : TxnId) (keep : Bool) :
    (ℓ.finish txn keep).Agrees (StoreAction.complete txn keep s).2 := by
  cases keep with
  | true =>
      obtain ⟨mid, ended, flushes, clean⟩ := StoreAction.complete_commit txn ok
      rw [ended]
      exact (agrees.commit ok flushes clean).withLocks _
  | false =>
      obtain ⟨pool, ended, -, residents⟩ := StoreAction.complete_rollback txn ok
      rw [ended]
      exact (agrees.rollback residents).withLocks _

end Ledger

end RowStore
