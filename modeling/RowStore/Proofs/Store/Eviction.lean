/-
# RowStore.Proofs.Store.Eviction -- reaching a page drops the oldest clean page or none

Each use of the pool is a run of events with the accesses of that use (`UseOf.trace`), so the
recency order of a pool that began empty follows the history of all accesses.  A transaction
that gets its lock on a page then meets one of four pools.  If the page is resident or a frame is free, no page
leaves.  If all frames are taken and some page is clean, exactly one page leaves: the
clean one that was accessed longest ago.  If all frames hold dirty pages, the request is
refused and the pool is as it was.  A dirty page never leaves (`eviction_of_uses`).
-/
import RowStore.Proofs.Store.Frames

namespace RowStore

set_option autoImplicit false

open Relation RowStore.Action

namespace StoreAction

open Store

variable {s : Store}

/-! ## Writing back and dropping -/

theorem trace_foldl_remove (pages : List PageId) (p : Pool) :
    p.Trace [] (pages.foldl Pool.remove p) := by
  induction pages generalizing p with
  | nil => exact .refl p
  | cons page rest ih => exact Pool.Trace.trans (.single (.removed p page)) (ih (p.remove page))

/-- To have come from a pool by events outlasts flushes and completions, which access
nothing. -/
theorem durable_trace (p : Pool) (history : List PageId) :
    Durable fun s => p.Trace history s.pool where
  beside := fun _ _ same trace => same ▸ trace
  cleared := by
    intro s index frame occupied trace
    rw [← List.append_nil history]
    refine trace.tail (.changed fun held found => ?_)
    rw [occupied] at found
    cases found
    rfl
  dropped := by
    intro s pages trace
    rw [← List.append_nil history]
    exact trace.trans (trace_foldl_remove pages _)

end StoreAction

namespace Store

open StoreAction

variable {s after : Store}

theorem trace_createTable (name : String) (schema : Schema) :
    s.pool.Trace [] (createTable name schema s).2.pool := by
  rcases run : createTable name schema s with ⟨answer, after⟩
  rcases createTable_spec run with rfl | ⟨path, rfl | ⟨file, -, rfl⟩⟩
  · exact .refl _
  · exact .refl _
  · exact trace_foldl_remove _ _

theorem pool_openTable (name : String) (schema : Schema) :
    (openTable name schema s).2.pool = s.pool := by
  rcases run : openTable name schema s with ⟨answer, after⟩
  obtain ⟨start, rfl | ⟨path, -, rfl⟩, rfl | ⟨-, file, -, rfl⟩⟩ := openTable_spec run <;> rfl

/-- **A call** is a run of events with its accesses. -/
theorem traced_carryOut (ok : s.pool.Consistent) (txn : TxnId) (call : Call) :
    s.pool.Trace (s.accesses txn call) (s.carryOut txn call).pool := by
  cases call with
  | insert table values => exact traced_insertRow ok txn table values
  | delete row => exact traced_deleteRow ok txn row
  | scan table => exact traced_scan ok txn table
  | read page mode => exact traced_readPage ok txn page mode
  | complete keep => exact (durable_trace s.pool []).complete (.refl _) txn keep

/-- **Every use** is a run of events with its accesses. -/
theorem UseOf.trace {accessed : List PageId} (use : UseOf s accessed after)
    (ok : s.pool.Consistent) : s.pool.Trace accessed after.pool := by
  have ends := durable_trace s.pool []
  cases use with
  | beside same => exact same ▸ .refl _
  | called _ txn call => exact traced_carryOut ok txn call
  | changed _ txn id action own => exact traced_changePage ok txn id action
  | handled _ index page own => exact .single (.changed own)
  | wroteBack _ index => exact ends.writeBack (.refl _) index
  | flushedPage _ id => exact (durable_trace s.pool _).flushPage (trace_lookup ok id)
  | flushedChanges _ txn => exact ends.flushChangesOf (.refl _) txn
  | flushed => exact ends.forM_writeBack (.refl _) s.pool.occupied
  | discarded _ id => exact .single (.removed s.pool id)
  | created _ name schema => exact trace_createTable name schema
  | attached _ name schema => exact pool_openTable name schema ▸ .refl _

/-- A run of uses is a run of events with the history of the uses. -/
theorem Logged.trace {start : Store} {history : List PageId} (ok : start.pool.Consistent)
    (logged : start.Logged history s) : start.pool.Trace history s.pool := by
  induction logged with
  | refl => exact .refl _
  | tail _ use ih => exact ih.trans (use.trace (ih.consistent ok))

/-- The page lies in a file that is registered and can be read from it. -/
def Readable (s : Store) (id : PageId) : Prop :=
  ∃ file page, s.catalog.file id.table = .ok file ∧ s.readFromDisk file id = .ok page

end Store

/-! ## Reaching a page -/

namespace StoreAction

open Store

variable {s : Store} {txn : TxnId} {id : PageId} {history : List PageId}

theorem acquire_granted {r : LockRequest} (granted : (s.locks.request txn r).1 = .granted) :
    acquire txn r s = (.ok (), { s with locks := (s.locks.request txn r).2 }) := by
  unfold acquire
  simp only [bind_apply, get_apply, set_apply]
  generalize s.locks.request txn r = outcome at granted ⊢
  obtain ⟨verdict, locks⟩ := outcome
  subst granted
  rfl

theorem bring_apply (page : Page) (s : Store) :
    bring page s = match s.pool.bring page with
      | .ok (frame, pool) => (.ok frame, { s with pool })
      | .error fault => (.error (.fault fault), s) := by
  unfold bring
  simp only [bind_apply, get_apply, ofExcept_apply]
  cases s.pool.bring page <;> rfl

/-- The requester gets the page as it is resident then. -/
def Gets (id : PageId) (outcome : Except Stop Frame × Store) : Prop :=
  ∃ frame, outcome.1 = .ok frame ∧ outcome.2.pool.resident? id = some frame

theorem fetch_serves (dated : s.pool.Dated history) (readable : s.Readable id) :
    s.pool.Serves history id (fetch id s).2.pool (Gets id (fetch id s))
      ((fetch id s).1 = .error (.fault .poolFull)) := by
  cases there : s.pool.resident? id with
  | some frame =>
      rw [fetch_resident there]
      refine Pool.serves_lookup (by simp [there]) ⟨frame, rfl, ?_⟩
      rw [← there]
      exact Pool.resident?_lookup _ _ _
  | none =>
      obtain ⟨file, page, registered, read⟩ := readable
      obtain rfl : page.id = id := by rw [(readFromDisk_eq_ok_iff.1 read).2.2.1]
      have brings : fetch page.id s = bring page s := by
        rw [fetch_absent dated.consistent there]
        simp only [tableFile, bind_apply, query_apply, registered, read, Except.mapError]
      rw [brings, bring_apply]
      rcases dated.bring_cases there with
        ⟨room, after, done, brought⟩ | ⟨full, victim, after, oldest, done, brought⟩ | ⟨crowded, failed⟩
      · rw [done]
        exact brought.serves room ⟨_, rfl, (brought _).trans (if_pos rfl)⟩
      · rw [done]
        exact brought.serves_oldest there full oldest ⟨_, rfl, (brought _).trans (if_pos rfl)⟩
      · rw [failed]
        exact crowded.serves there rfl

theorem readPage_serves {mode : LockMode} (dated : s.pool.Dated history)
    (readable : s.Readable id) (granted : (s.locks.request txn ⟨id, mode⟩).1 = .granted) :
    s.pool.Serves history id (readPage txn id mode s).2.pool (Gets id (readPage txn id mode s))
      ((readPage txn id mode s).1 = .error (.fault .poolFull)) := by
  unfold readPage
  rw [bind_apply, acquire_granted granted]
  exact fetch_serves (s := { s with locks := (s.locks.request txn ⟨id, mode⟩).2 }) dated readable

/-- The action runs on the page, which stays in the pool as the action left it. -/
def Changed {α : Type} (id : PageId) (action : PageAction α)
    (outcome : Except Stop (α × Frame) × Store) : Prop :=
  ∃ frame : Frame,
    outcome.2.pool.resident? id = some { frame with page := (action frame.page).2 } ∧
    outcome.1 = match (action frame.page).1 with
      | .ok a => .ok (a, { frame with page := (action frame.page).2 })
      | .error fault => .error (.fault fault)

theorem changePage_serves {α : Type} {action : PageAction α} (dated : s.pool.Dated history)
    (readable : s.Readable id) (granted : (s.locks.request txn ⟨id, .exclusive⟩).1 = .granted)
    (own : ∀ page, (action page).2.id = page.id) :
    s.pool.Serves history id (changePage txn id action s).2.pool
      (Changed id action (changePage txn id action s))
      ((changePage txn id action s).1 = .error (.fault .poolFull)) := by
  have reached := readPage_serves dated readable granted
  rcases read : readPage txn id .exclusive s with ⟨stop | frame, mid⟩ <;> rw [read] at reached
  · have failed : changePage txn id action s = (.error stop, mid) := by
      unfold changePage
      rw [bind_apply, read]
    rw [failed]
    refine reached.mono ?_ ?_
    · rintro ⟨frame, same, -⟩
      cases same
    · intro same
      cases same
      rfl
  · obtain ⟨after, ran, rfl, -, -, replaces⟩ := changePage_of_read dated.consistent own read
    rw [ran]
    have here : after.pool.resident? frame.id = some { frame with page := (action frame.page).2 } := by
      rw [replaces.residents, if_pos rfl]
    refine reached.changed (fun _ => ⟨frame, here, rfl⟩) (fun same => by cases same)
      (fun other apart => ?_) (by simp [here])
    rw [replaces.residents]
    exact if_neg apart

end StoreAction

namespace Store

open StoreAction

variable {s : Store} {capacity : Nat}

/-- **Who leaves the pool.**  Uses of a pool that began empty have a history, which lists
their accesses in order (`Logged`), and the history decides who leaves.  A transaction that
gets its lock on a page of a registered file, to read it or to change it, gets the page
without any other page leaving if the page is resident or a frame is free; it gets it in
exchange for the clean page that was accessed longest ago if there is a clean one; and it is
refused, the pool staying as it is, if all frames hold dirty pages.  No dirty page leaves.

As in `accounted_of_uses`, a page that is changed in the pool keeps its own id. -/
theorem eviction_of_uses {start : Store} (empty : start.pool = .new capacity)
    (uses : ReflTransGen Use start s) :
    (∃ history, start.Logged history s) ∧
      ∀ history, start.Logged history s →
        ∀ (txn : TxnId) (id : PageId), s.Readable id →
          (∀ mode, (s.locks.request txn ⟨id, mode⟩).1 = .granted →
            s.pool.Serves history id (readPage txn id mode s).2.pool
              (Gets id (readPage txn id mode s))
              ((readPage txn id mode s).1 = .error (.fault .poolFull))) ∧
          ∀ (α : Type) (action : PageAction α), (∀ page, (action page).2.id = page.id) →
            (s.locks.request txn ⟨id, .exclusive⟩).1 = .granted →
              s.pool.Serves history id (changePage txn id action s).2.pool
                (Changed id action (changePage txn id action s))
                ((changePage txn id action s).1 = .error (.fault .poolFull)) := by
  have ok : start.pool.Consistent := empty ▸ Pool.consistent_new capacity
  refine ⟨exists_logged uses, fun history logged txn id readable => ?_⟩
  have dated : s.pool.Dated history := Pool.dated_of_trace (empty ▸ logged.trace ok)
  exact ⟨fun mode granted => readPage_serves dated readable granted,
    fun α action own granted => changePage_serves dated readable granted own⟩

/-- What was accessed until the store was `evicted`: each insert tries the pages that there
are, gets the page that it appended and installs that page once more. -/
def evictingHistory : List PageId :=
  [0, 0, 0, 1, 1, 0, 1, 2, 2].map fun number => ⟨TableFile.flags.id, number⟩

/-- Both frames hold clean pages, of which the page with number one was accessed longest
ago.  To read the page with number zero again, or to mark it, is to lose that one. -/
theorem eviction_evicted :
    flags.pool = .new 2 ∧ ReflTransGen Use flags evicted ∧ flags.Logged evictingHistory evicted ∧
      evicted.Readable ⟨TableFile.flags.id, 0⟩ ∧
      evicted.pool.Serves evictingHistory ⟨TableFile.flags.id, 0⟩
        (readPage ⟨5⟩ ⟨TableFile.flags.id, 0⟩ .shared evicted).2.pool
        (Gets ⟨TableFile.flags.id, 0⟩ (readPage ⟨5⟩ ⟨TableFile.flags.id, 0⟩ .shared evicted))
        ((readPage ⟨5⟩ ⟨TableFile.flags.id, 0⟩ .shared evicted).1 = .error (.fault .poolFull)) ∧
      evicted.pool.Serves evictingHistory ⟨TableFile.flags.id, 0⟩
        (changePage ⟨5⟩ ⟨TableFile.flags.id, 0⟩ (PageAction.mark (some ⟨5⟩)) evicted).2.pool
        (Changed ⟨TableFile.flags.id, 0⟩ (PageAction.mark (some ⟨5⟩))
          (changePage ⟨5⟩ ⟨TableFile.flags.id, 0⟩ (PageAction.mark (some ⟨5⟩)) evicted))
        ((changePage ⟨5⟩ ⟨TableFile.flags.id, 0⟩ (PageAction.mark (some ⟨5⟩)) evicted).1 =
          .error (.fault .poolFull)) ∧
      (readPage ⟨5⟩ ⟨TableFile.flags.id, 0⟩ .shared evicted).2.pool.residents =
        [⟨TableFile.flags.id, 0⟩, ⟨TableFile.flags.id, 2⟩] := by
  have accessed : flags.accessesOf evictingCalls = evictingHistory := by cbv
  have logged : flags.Logged evictingHistory evicted := accessed ▸ logged_carryOut .refl evictingCalls
  have known : evicted.catalog.file TableFile.flags.id = .ok TableFile.flags := by cbv
  have readable : evicted.Readable ⟨TableFile.flags.id, 0⟩ := by
    have fine : (evicted.readFromDisk TableFile.flags ⟨TableFile.flags.id, 0⟩).isOk = true := by cbv
    cases read : evicted.readFromDisk TableFile.flags ⟨TableFile.flags.id, 0⟩ with
    | ok page => exact ⟨TableFile.flags, page, known, read⟩
    | error fault =>
        rw [read] at fine
        cases fine
  have granted : ∀ mode : LockMode,
      (evicted.locks.request ⟨5⟩ ⟨⟨TableFile.flags.id, 0⟩, mode⟩).1 = .granted := by
    intro mode
    cases mode <;> cbv
  have empty : flags.pool = .new 2 := rfl
  obtain ⟨-, all⟩ := eviction_of_uses empty logged.uses
  obtain ⟨reads, changes⟩ := all evictingHistory logged ⟨5⟩ _ readable
  exact ⟨empty, logged.uses, logged, readable, reads .shared (granted _),
    changes Unit (PageAction.mark (some ⟨5⟩)) (fun _ => rfl) (granted _), by cbv⟩

end Store

end RowStore
