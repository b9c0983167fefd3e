/-
# RowStore.Proofs.Store.Accesses -- which pages a call accesses, and in which order

A call accesses a page when it gets it, be it resident or loaded; an insert or a delete
accesses the page that it has changed once more when it installs the new version; and to
flush a page by itself is an access.  `Store.accesses` lists the accesses of a call.  It
goes through the call clause by clause and looks at what the parts of it answer, but not at
the recency order of the pool.

What each part of a call does to the pool is a run of events with these very accesses
(`StoreAction.Traced`), and it is the events that the recency order follows.
-/
import RowStore.Proofs.Pool.History
import RowStore.Proofs.Store.Effects

namespace RowStore

set_option autoImplicit false

/-- The pages that are accessed in a store, in order, if something is done there. -/
abbrev Accesses := Store → List PageId

namespace Accesses

variable {α : Type}

/-! ## What is accessed -/

/-- Nothing is accessed. -/
def quiet : Accesses := fun _ => []

/-- The accesses during an action, and if it does not stop, those of what follows. -/
def inTurn (during : Accesses) (first : StoreAction α) (later : α → Accesses) : Accesses := fun s =>
  during s ++
    match first s with
    | (.ok a, mid) => later a mid
    | (.error _, _) => []

/-- A look at a page that is resident. -/
def lookup (id : PageId) : Accesses := fun s => if (s.pool.resident? id).isSome then [id] else []

/-- A transaction that gets the page has found it resident or has loaded it. -/
def readPage (txn : TxnId) (id : PageId) (mode : LockMode) : Accesses := fun s =>
  if (StoreAction.readPage txn id mode s).1.isOk then [id] else []

/-- The page is accessed to be changed, whatever the change answers. -/
def changePage (txn : TxnId) (id : PageId) : Accesses := readPage txn id .exclusive

/-- A changed page is installed. -/
def markChanged (txn : TxnId) (frame : Frame) : Accesses := fun s =>
  if (StoreAction.markChanged txn frame s).1.isOk then [frame.id] else []

/-- Up to the page that takes the row, each is tried. -/
def insertOnPages (file : TableFile) (txn : TxnId) (values : List Value) : List Nat → Accesses
  | [] => quiet
  | number :: rest =>
      inTurn (changePage txn ⟨file.id, number⟩)
        (StoreAction.changePage txn ⟨file.id, number⟩ (StoreAction.insertIfRoom txn values))
        fun
          | (some _, _) => quiet
          | (none, _) => insertOnPages file txn values rest

def insertOnNewPage (file : TableFile) (txn : TxnId) (values : List Value) : Nat → Accesses
  | 0 => quiet
  | attempts + 1 =>
      inTurn quiet (StoreAction.appendPage file) fun page =>
        inTurn (changePage txn page)
          (StoreAction.changePage txn page (StoreAction.insertIfRoom txn values))
          fun
            | (some _, _) => quiet
            | (none, _) => insertOnNewPage file txn values attempts

def insertInFile (file : TableFile) (txn : TxnId) (values : List Value) : Accesses :=
  inTurn quiet (Action.ofExcept ((file.schema.check values).mapError Fault.badShape)) fun _ s =>
    let pages := List.range (s.pageCount file)
    inTurn (insertOnPages file txn values pages) (StoreAction.insertOnPages file txn values pages)
      (fun
        | some _ => quiet
        | none => fun mid => insertOnNewPage file txn values (mid.pool.capacity + 1) mid) s

def insertRow (txn : TxnId) (table : TableId) (values : List Value) : Accesses :=
  inTurn quiet (StoreAction.tableFile table) fun file =>
    inTurn (insertInFile file txn values) (StoreAction.insertInFile file txn values) fun stored =>
      markChanged txn stored.2

def deleteInFile (file : TableFile) (txn : TxnId) (row : Row) : Accesses :=
  match row.id? with
  | none => quiet
  | some id =>
      inTurn quiet (Action.ofExcept (file.checkOwner id.page)) fun _ s =>
        if s.pageCount file ≤ id.page.number then [] else changePage txn id.page s

def deleteRow (txn : TxnId) (row : Row) : Accesses :=
  match row.id? with
  | none => quiet
  | some id =>
      inTurn quiet (StoreAction.tableFile id.page.table) fun file =>
        inTurn (deleteInFile file txn row) (StoreAction.deleteInFile file txn row) fun frame =>
          markChanged txn frame

/-- A scan stops at the first page that it does not get or cannot decode. -/
def scanPages (file : TableFile) (txn : TxnId) : List Nat → Accesses
  | [] => quiet
  | number :: rest =>
      inTurn (readPage txn ⟨file.id, number⟩ .shared)
        (StoreAction.readPage txn ⟨file.id, number⟩ .shared) fun frame =>
          inTurn quiet (Action.ofExcept frame.page.rows) fun _ => scanPages file txn rest

def scan (txn : TxnId) (table : TableId) : Accesses :=
  inTurn quiet (StoreAction.tableFile table) fun file s =>
    scanPages file txn (List.range (s.pageCount file)) s

end Accesses

/-- The accesses of a call.  The pages that the end of a transaction writes or drops are not
accessed. -/
def Store.accesses (s : Store) (txn : TxnId) : Call → List PageId
  | .insert table values => Accesses.insertRow txn table values s
  | .delete row => Accesses.deleteRow txn row s
  | .scan table => Accesses.scan txn table s
  | .read page mode => Accesses.readPage txn page mode s
  | .complete _ => []

namespace StoreAction

open Store RowStore.Action

variable {α β : Type} {s : Store} {during : Accesses}

/-! ## Calls as events -/

/-- What the action does to the pool is a run of events with these accesses. -/
def Traced (s : Store) (action : StoreAction α) (during : Accesses) : Prop :=
  s.pool.Trace (during s) (action s).2.pool

theorem traced_of_pool {action : StoreAction α} (same : (action s).2.pool = s.pool) :
    Traced s action .quiet := by
  unfold Traced
  rw [same]
  exact .refl s.pool

theorem Traced.bind {first : StoreAction α} {next : α → StoreAction β} {later : α → Accesses}
    (ok : s.pool.Consistent) (traced : Traced s first during)
    (follows : ∀ a mid, first s = (.ok a, mid) → mid.pool.Consistent →
      Traced mid (next a) (later a)) : Traced s (first >>= next) (.inTurn during first later) := by
  unfold Traced at traced ⊢
  rw [bind_apply, Accesses.inTurn]
  rcases run : first s with ⟨stop | a, mid⟩ <;> rw [run] at traced
  · simpa using traced
  · exact traced.trans (follows a mid run (traced.consistent ok))

/-- What follows may access nothing. -/
theorem Traced.last {first : StoreAction α} {next : α → StoreAction β} (ok : s.pool.Consistent)
    (traced : Traced s first during)
    (follows : ∀ a mid, first s = (.ok a, mid) → mid.pool.Consistent →
      Traced mid (next a) .quiet) : Traced s (first >>= next) during := by
  have all := Traced.bind ok traced follows
  have nothing : Accesses.inTurn during first (fun _ => .quiet) s = during s := by
    unfold Accesses.inTurn
    rcases first s with ⟨_ | _, mid⟩ <;> exact List.append_nil _
  rwa [Traced, nothing] at all

theorem traced_query (look : Store → Except Fault α) : Traced s (query look) .quiet := by
  apply traced_of_pool
  rw [query_apply]

theorem traced_ofExcept (r : Except Fault α) : Traced s (ofExcept r : StoreAction α) .quiet := by
  apply traced_of_pool
  rw [ofExcept_apply]

theorem pool_acquire (txn : TxnId) (r : LockRequest) : (acquire txn r s).2.pool = s.pool := by
  rcases run : acquire txn r s with ⟨answer, after⟩
  exact (acquire_spec run).2.1

theorem trace_lookup (ok : s.pool.Consistent) (id : PageId) :
    s.pool.Trace (Accesses.lookup id s) (s.pool.lookup id).2 := by
  unfold Accesses.lookup
  cases there : s.pool.resident? id with
  | none =>
      rw [Pool.lookup, ok.resident?_eq_none.1 there]
      exact .refl _
  | some frame => exact .single (.hit there)

theorem fetch_resident {id : PageId} {frame : Frame} (there : s.pool.resident? id = some frame) :
    fetch id s = (.ok frame, { s with pool := (s.pool.lookup id).2 }) := by
  unfold fetch
  rw [bind_apply, lookup_apply, there]
  rfl

/-- A page that is not resident is looked for on disk, and the pool has not changed then. -/
theorem fetch_absent {id : PageId} (ok : s.pool.Consistent) (absent : s.pool.resident? id = none) :
    fetch id s = (do
      let file ← tableFile id.table
      let page ← query fun s => s.readFromDisk file id
      bring page : StoreAction Frame) s := by
  have untouched : ({ s with pool := (s.pool.lookup id).2 } : Store) = s := by
    rw [Pool.lookup, ok.resident?_eq_none.1 absent]
  unfold fetch
  rw [bind_apply, lookup_apply, untouched, absent]

/-- Fetching a page accesses it, unless it fails. -/
theorem trace_fetch (ok : s.pool.Consistent) (id : PageId) :
    s.pool.Trace (if (fetch id s).1.isOk then [id] else []) (fetch id s).2.pool := by
  cases there : s.pool.resident? id with
  | some frame =>
      rw [fetch_resident there]
      exact .single (.hit there)
  | none =>
      rw [fetch_absent ok there]
      rcases run : (do
        let file ← tableFile id.table
        let page ← query fun s => s.readFromDisk file id
        bring page : StoreAction Frame) s with ⟨answer, after⟩
      rcases bind_cases run with ⟨stop, unknown, rfl⟩ | ⟨file, start, looked, later⟩
      · rw [query_state unknown]
        exact .refl _
      obtain rfl := query_state looked
      rcases bind_cases later with ⟨stop, failed, rfl⟩ | ⟨page, mid, read, brings⟩
      · rw [query_state failed]
        exact .refl _
      obtain ⟨found, rfl⟩ := query_ok read
      obtain rfl : page.id = id := by rw [(readFromDisk_eq_ok_iff.1 found).2.2.1]
      rcases bring_spec brings with ⟨stop, rfl, rfl⟩ | ⟨frame, pool, rfl, brought, rfl⟩
      · exact .refl _
      · exact .single (.loaded brought)

theorem traced_readPage (ok : s.pool.Consistent) (txn : TxnId) (id : PageId) (mode : LockMode) :
    Traced s (readPage txn id mode) (.readPage txn id mode) := by
  have same := pool_acquire (s := s) txn ⟨id, mode⟩
  unfold Traced Accesses.readPage readPage
  rw [bind_apply]
  rcases run : acquire txn ⟨id, mode⟩ s with ⟨stop | _, mid⟩ <;> rw [run] at same
  · rw [← same]
    exact .refl _
  · have fetched := trace_fetch (s := mid) (same ▸ ok) id
    rwa [same] at fetched

/-- A version of a page goes into the frame of that page. -/
theorem traced_storePage (ok : s.pool.Consistent) (page : Page) :
    Traced s (storePage page) .quiet := by
  cases there : s.pool.directory.get? page.id with
  | none =>
      apply traced_of_pool
      unfold storePage modifyPool
      simp only [modify_apply, there]
  | some index =>
      unfold Traced storePage modifyPool
      simp only [modify_apply, there]
      refine .single (.changed fun frame occupied => ?_)
      obtain ⟨held, found, own⟩ := ok.located page.id index there
      rw [occupied] at found
      cases found
      rw [ok.named index frame occupied, own]

theorem traced_changePage (ok : s.pool.Consistent) (txn : TxnId) (id : PageId)
    (action : PageAction α) : Traced s (changePage txn id action) (.changePage txn id) := by
  refine Traced.last ok (traced_readPage ok txn id .exclusive) fun frame mid _ still => ?_
  generalize action frame.page = result
  obtain ⟨reply, page⟩ := result
  refine Traced.last still (traced_storePage still page) fun _ _ _ _ => ?_
  cases reply <;> exact traced_of_pool rfl

/-! ### Rows -/

theorem traced_insertOnPages (ok : s.pool.Consistent) (file : TableFile) (txn : TxnId)
    (values : List Value) (pages : List Nat) :
    Traced s (insertOnPages file txn values pages) (.insertOnPages file txn values pages) := by
  induction pages generalizing s with
  | nil => exact traced_of_pool rfl
  | cons number rest ih =>
      refine Traced.bind ok (traced_changePage ok txn _ _) fun tried mid _ still => ?_
      obtain ⟨_ | id, frame⟩ := tried
      · exact ih still
      · exact traced_of_pool rfl

theorem traced_appendPage (file : TableFile) : Traced s (appendPage file) .quiet := by
  apply traced_of_pool
  rw [appendPage_apply]
  rfl

theorem traced_insertOnNewPage (ok : s.pool.Consistent) (file : TableFile) (txn : TxnId)
    (values : List Value) (attempts : Nat) :
    Traced s (insertOnNewPage file txn values attempts)
      (.insertOnNewPage file txn values attempts) := by
  induction attempts generalizing s with
  | zero => exact traced_of_pool rfl
  | succ attempts ih =>
      refine Traced.bind ok (traced_appendPage file) fun page grown _ larger => ?_
      refine Traced.bind larger (traced_changePage larger txn page _) fun tried mid _ still => ?_
      obtain ⟨_ | id, frame⟩ := tried
      · exact ih still
      · exact traced_of_pool rfl

theorem traced_insertInFile (ok : s.pool.Consistent) (file : TableFile) (txn : TxnId)
    (values : List Value) :
    Traced s (insertInFile file txn values) (.insertInFile file txn values) := by
  refine Traced.bind ok (traced_ofExcept _) fun _ start _ begun => ?_
  refine Traced.bind begun (traced_insertOnPages begun file txn values _) fun stored mid _ still => ?_
  cases stored with
  | some found => exact traced_of_pool rfl
  | none => exact traced_insertOnNewPage still file txn values _

/-- A page that a call has changed is installed under its own id. -/
theorem traced_markChanged (txn : TxnId) {frame : Frame} (named : frame.page.id = frame.id) :
    Traced s (markChanged txn frame) (.markChanged txn frame) := by
  have own : ({ frame with page := frame.page.withMark (some txn) } : Frame).page.id = frame.id := named
  unfold Traced Accesses.markChanged markChanged install
  simp only [bind_apply, get_apply, ofExcept_apply]
  cases installed : s.pool.install { frame with page := frame.page.withMark (some txn) } with
  | error fault => exact .refl _
  | ok pool =>
      have event := Pool.Event.installed own installed
      exact .single event

theorem named_of_edits {txn : TxnId} {after : Store} {frame : Frame} {page : Page}
    (edits : Edits txn s after frame page) : page.id = frame.id := by
  obtain ⟨mid, -, -, -, replaces⟩ := edits
  have here : after.pool.resident? frame.id = some { frame with page } := by
    rw [replaces.residents, if_pos rfl]
  exact (replaces.consistent.resident?_id here).2

theorem traced_insertRow (ok : s.pool.Consistent) (txn : TxnId) (table : TableId)
    (values : List Value) : Traced s (insertRow txn table values) (.insertRow txn table values) := by
  refine Traced.bind ok (traced_query _) fun file start looked begun => ?_
  obtain ⟨registered, rfl⟩ := query_ok looked
  refine Traced.bind ok (traced_insertInFile ok file txn values) fun stored mid inserted still => ?_
  obtain ⟨id, changed⟩ := stored
  refine Traced.last still (traced_markChanged txn ?_) fun _ _ _ _ => traced_of_pool rfl
  rcases insertInFile_spec ok registered inserted with
    ⟨-, stop, same⟩ | ⟨row, held, same, frame, page, -, edits, made⟩
  · cases same
  · cases same
    subst made
    have own := named_of_edits edits
    exact own

theorem traced_deleteInFile (ok : s.pool.Consistent) (file : TableFile) (txn : TxnId)
    (row : Row) : Traced s (deleteInFile file txn row) (.deleteInFile file txn row) := by
  unfold deleteInFile Accesses.deleteInFile
  cases row.id? with
  | none => exact traced_of_pool rfl
  | some id =>
      refine Traced.bind ok (traced_ofExcept _) fun _ start _ begun => ?_
      unfold Traced
      rw [bind_apply, get_apply]
      simp only
      split
      · exact .refl _
      · exact Traced.last begun (traced_changePage begun txn id.page _) fun _ _ _ _ =>
          traced_of_pool rfl

theorem traced_deleteRow (ok : s.pool.Consistent) (txn : TxnId) (row : Row) :
    Traced s (deleteRow txn row) (.deleteRow txn row) := by
  unfold deleteRow Accesses.deleteRow
  cases named : row.id? with
  | none => exact traced_of_pool rfl
  | some id =>
      refine Traced.bind ok (traced_query _) fun file start looked _ => ?_
      obtain ⟨-, rfl⟩ := query_ok looked
      refine Traced.bind ok (traced_deleteInFile ok file txn row) fun changed mid erased _ => ?_
      rcases deleteInFile_spec ok named erased with ⟨-, stop, same⟩ | ⟨frame, rest, same, -, edits⟩
      · cases same
      · cases same
        have own := named_of_edits edits
        exact traced_markChanged txn own

theorem traced_scanPages (ok : s.pool.Consistent) (file : TableFile) (txn : TxnId)
    (pages : List Nat) : Traced s (scanPages file txn pages) (.scanPages file txn pages) := by
  induction pages generalizing s with
  | nil => exact traced_of_pool rfl
  | cons number rest ih =>
      refine Traced.bind ok (traced_readPage ok txn _ .shared) fun frame mid _ still => ?_
      refine Traced.bind still (traced_ofExcept _) fun front _ _ listed => ?_
      exact Traced.last listed (ih listed) fun _ _ _ _ => traced_of_pool rfl

theorem traced_scan (ok : s.pool.Consistent) (txn : TxnId) (table : TableId) :
    Traced s (scan txn table) (.scan txn table) := by
  refine Traced.bind ok (traced_query _) fun file _ _ known => ?_
  exact traced_scanPages known file txn _

end StoreAction

end RowStore
