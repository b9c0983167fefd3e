/-
# RowStore.Proofs.Query.Replay -- a rewound plan answers what a new one answers

After a start and after a rewind a plan has all its rows to answer, whatever was taken from
it before.  So a rewound plan and a new copy of it answer the same rows, as long as the tables
stay as they are (`rewound_as_new`).

This needs a faithful store.  A refusal to replace a table empties its file and leaves its
pages resident.  Such a page is seen until it is evicted, so a plan may answer rows of it
after a rewind that a new copy does not find (`rewound_unlike_new`).
-/
import RowStore.Proofs.Query.Forecast
import RowStore.Proofs.Query.Runs
import RowStore.Proofs.Store.Replacement

namespace RowStore

set_option autoImplicit false

open RowStore.Action

variable {files : TableId → Option TableFile}

namespace Running

/-- The plan is pulled until it answers that there are no more rows, no call fails, and
whatever happens between two calls changes nothing of the tables. -/
inductive Drains (files : TableId → Option TableFile) :
    Running → Store → List Row → Running → Store → Prop where
  | done {r now : Running} {s after : Store} (run : next (r, s) = (.ok none, now, after)) :
      Drains files r s [] now after
  | row {r mid now : Running} {s between after : Store} {row : Row} {rows : List Row}
      (run : next (r, s) = (.ok (some row), mid, between))
      (rest : Drains files mid between rows now after) :
      Drains files r s (row :: rows) now after
  | meanwhile {r now : Running} {s between after : Store} {rows : List Row}
      (still : s.Still files between) (rest : Drains files r between rows now after) :
      Drains files r s rows now after

/-- The plan has these rows still to answer. -/
structure Due (files : TableId → Option TableFile) (r : Running) (s : Store)
    (rows? : Option (List Row)) : Prop where
  faithful : s.Faithful files
  ahead : r.plan.ahead files s r.state rows?

variable {r mid now : Running} {s between after : Store} {rows : List Row}
  {rows? : Option (List Row)}

theorem Due.still (due : Due files r s rows?) (still : s.Still files after) :
    Due files r after rows? :=
  ⟨still.faithful, (Plan.foretells r.txn r.plan).still still due.ahead⟩

/-- A call that does not fail takes the first of them. -/
theorem Due.next (due : Due files r s rows?) {answer : Option Row}
    (run : Running.next (r, s) = (.ok answer, now, after)) :
    s.Still files after ∧ Source.Leaves (Due files now after) answer rows? := by
  obtain ⟨state, rfl, ran⟩ := perform_cases run
  obtain ⟨still, leaves⟩ := (Plan.foretells r.txn r.plan).next due.faithful due.ahead ran
  refine ⟨still, ?_⟩
  cases answer with
  | none => exact ⟨leaves.1, still.faithful, leaves.2⟩
  | some row =>
      obtain ⟨left?, same, later⟩ := leaves
      exact ⟨left?, same, still.faithful, later⟩

theorem due_of_start {txn : TxnId} {plan : Plan} (readOnly : plan.ReadOnly)
    (faithful : s.Faithful files) (run : start (.new txn plan, s) = (.ok (), now, after)) :
    s.Still files after ∧ Due files now after (plan.rows? files s) := by
  obtain ⟨state, rfl, ran⟩ := perform_cases run
  obtain ⟨still, ahead⟩ := Plan.ahead_of_start readOnly faithful ran
  exact ⟨still, still.faithful, ahead⟩

theorem due_of_rewind (used : Used files true r s) (readOnly : r.plan.ReadOnly)
    (faithful : s.Faithful files) (run : rewind (r, s) = (.ok (), now, after)) :
    s.Still files after ∧ Due files now after (r.plan.rows? files s) := by
  obtain ⟨sound, -, ready⟩ := used.inPhase
  obtain ⟨state, rfl, ran⟩ := perform_cases run
  obtain ⟨still, ahead⟩ := Plan.ahead_of_rewind readOnly faithful sound (ready rfl) ran
  exact ⟨still, still.faithful, ahead⟩

/-- **The rows that are taken** are all rows that were to come. -/
theorem Drains.rows_eq (drains : Drains files r s rows now after) (due : Due files r s rows?) :
    rows? = some rows := by
  induction drains generalizing rows? with
  | done run => exact (due.next run).2.1
  | row run _ ih =>
      obtain ⟨-, left?, rfl, later⟩ := due.next run
      rw [ih later]
      rfl
  | meanwhile still _ ih => exact ih (due.still still)

/-- **A plan that is rewound**, wherever it was, answers the rows that a new copy of it
answers, as long as nothing of the tables changes and no call fails.  None of these calls can
fail for want of steps (`never_exhausted`). -/
theorem rewound_as_new {copy ended : Running} {later other last : Store} {txn : TxnId}
    {fresh : List Row}
    (used : Used files true r s) (readOnly : r.plan.ReadOnly) (faithful : s.Faithful files)
    (rewound : rewind (r, s) = (.ok (), mid, between))
    (drains : Drains files mid between rows now after)
    (still : s.Still files later)
    (started : start (.new txn r.plan, later) = (.ok (), copy, other))
    (anew : Drains files copy other fresh ended last) : rows = fresh := by
  have again := drains.rows_eq (due_of_rewind used readOnly faithful rewound).2
  have first := anew.rows_eq (due_of_start readOnly still.faithful started).2
  rw [still.rows?, again] at first
  exact Option.some.inj first

/-! ### A table that stays as it is -/

section

variable {w : Running × Store}

theorem Drains.pull {row : Row} (answered : (Running.next w).1 = .ok (some row))
    (rest : Drains files (Running.next w).2.1 (Running.next w).2.2 rows now after) :
    Drains files w.1 w.2 (row :: rows) now after := .row (Prod.ext answered rfl) rest

theorem Drains.stop (answered : (Running.next w).1 = .ok none) :
    Drains files w.1 w.2 [] (Running.next w).2.1 (Running.next w).2.2 :=
  .done (Prod.ext answered rfl)

end

theorem known_flagged (table : TableId) (file : TableFile) :
    Store.flagged.catalog.file table = .ok file ↔ Store.onlyFlags table = some file := by
  have catalog : Store.flagged.catalog = Store.flags.catalog := by cbv
  rw [catalog]
  constructor
  · exact Store.fits_flags table file
  · intro listed
    unfold Store.onlyFlags at listed
    split at listed
    · rename_i here
      cases listed
      exact here ▸ Store.registered_flags
    · cases listed

/-- The flags that are set were counted, and the answer was taken. -/
def pulled : Running × Store := (next begun).2

def rewound : Running × Store := (rewind pulled).2

def anew : Running × Store := (start (.new ⟨2⟩ tally, pulled.2)).2

theorem still_pulled : Store.flagged.Still Store.onlyFlags pulled.2 := by
  have faithful := Store.reachable_flagged.faithful known_flagged
  have readOnly : tally.ReadOnly := trivial
  have started : start (.new ⟨2⟩ tally, Store.flagged) = (.ok (), begun.1, begun.2) :=
    Prod.ext (by cbv) rfl
  have answered : next (begun.1, begun.2) =
      (.ok (some ⟨none, [.bool true, .int 1]⟩), pulled.1, pulled.2) := Prod.ext (by cbv) rfl
  obtain ⟨first, due⟩ := due_of_start readOnly faithful started
  exact first.trans (due.next answered).1

theorem drains_rewound : ∃ now after, Drains Store.onlyFlags rewound.1 rewound.2
    [⟨none, [.bool true, .int 1]⟩] now after := by
  have first : (next rewound).1 = .ok (some ⟨none, [.bool true, .int 1]⟩) := by cbv
  have second : (next (next rewound).2).1 = .ok none := by cbv
  exact ⟨_, _, .pull first (.stop second)⟩

theorem drains_anew : ∃ now after, Drains Store.onlyFlags anew.1 anew.2
    [⟨none, [.bool true, .int 1]⟩] now after := by
  have first : (next anew).1 = .ok (some ⟨none, [.bool true, .int 1]⟩) := by cbv
  have second : (next (next anew).2).1 = .ok none := by cbv
  exact ⟨_, _, .pull first (.stop second)⟩

theorem rewound_as_new_tally : ∃ rows fresh now after ended last,
    Drains Store.onlyFlags rewound.1 rewound.2 rows now after ∧
      Drains Store.onlyFlags anew.1 anew.2 fresh ended last ∧
      rows = [⟨none, [.bool true, .int 1]⟩] ∧ rows = fresh := by
  have used : Used Store.onlyFlags true pulled.1 pulled.2 := used_begun.pulled rfl
  have readOnly : tally.ReadOnly := trivial
  have back : rewind (pulled.1, pulled.2) = (.ok (), rewound.1, rewound.2) :=
    Prod.ext (by cbv) rfl
  have copied : start (.new ⟨2⟩ tally, pulled.2) = (.ok (), anew.1, anew.2) :=
    Prod.ext (by cbv) rfl
  obtain ⟨now, after, drains⟩ := drains_rewound
  obtain ⟨ended, last, fresh⟩ := drains_anew
  have faithful := still_pulled.faithful
  exact ⟨_, _, now, after, ended, last, drains, fresh, rfl,
    rewound_as_new used readOnly faithful back drains (.refl faithful) copied fresh⟩

/-! ### A table that was not replaced -/

/-- Two rows were committed, each on a page of its own. -/
def twoRows : Store :=
  ((Store.flags.carryOut ⟨1⟩ (.insert TableFile.flags.id [.bool true])).carryOut ⟨1⟩
    (.insert TableFile.flags.id [.bool true])).carryOut ⟨1⟩ (.complete true)

theorem refused_twoRows : ∃ stop, StoreAction.createTable "flags" Store.names twoRows =
    (.error stop, twoRows.cleared "/flags.dat") := by
  have known : twoRows.catalog.idOf "flags" = .ok TableFile.flags.id := by cbv
  have clean : twoRows.pool.hasDirty TableFile.flags.id = false := by cbv
  have path : twoRows.settings.tablePath "flags" = "flags.dat" := by cbv
  have narrow : slotCount twoRows.settings.pageSize Store.names.rowBytes = 0 := by cbv
  refine Store.createTable_narrow (fun id found => ?_) (path.symm ▸ locate_flags _) narrow
  rw [known] at found
  cases found
  exact clean

/-- Its file was emptied nevertheless, and then a row was committed. -/
def threeRows : Store :=
  ((twoRows.cleared "/flags.dat").carryOut ⟨2⟩
    (.insert TableFile.flags.id [.bool false])).carryOut ⟨2⟩ (.complete true)

/-- The second page was used last. -/
def outlived : Store := (StoreAction.flushPage ⟨TableFile.flags.id, 1⟩ threeRows).2

theorem settled_outlived : outlived.Settled Store.onlyFlags := by
  have before : twoRows.Settled Store.onlyFlags :=
    ((Store.settled_flags.later (.called _ _ _)).later (.called _ _ _)).later (.called _ _ _)
  obtain ⟨stop, refused⟩ := refused_twoRows
  have more : threeRows.Settled Store.onlyFlags :=
    ((before.refused refused).later (.called _ _ _)).later (.called _ _ _)
  exact more.later (.flushedPage threeRows ⟨TableFile.flags.id, 1⟩)

def scanning : Running × Store := (start (.new ⟨3⟩ (.scan TableFile.flags.id), outlived)).2

theorem used_scanning : Used Store.onlyFlags true scanning.1 scanning.2 := by
  have done : (start (.new ⟨3⟩ (.scan TableFile.flags.id), outlived)).1.isOk = true := by cbv
  unfold scanning
  exact used_of_start settled_outlived done

def scanned : Running × Store := (rewind scanning).2

/-- The rewound scan has been through. -/
def through : Running × Store := (next (next (next scanned).2).2).2

def scannedAnew : Running × Store :=
  (start (.new ⟨3⟩ (.scan TableFile.flags.id), through.2)).2

def staleRow : Row := ⟨some ⟨⟨TableFile.flags.id, 1⟩, 0⟩, [.bool true]⟩

def lastRow : Row := ⟨some ⟨⟨TableFile.flags.id, 2⟩, 0⟩, [.bool false]⟩

theorem drains_scanned :
    Drains Store.onlyFlags scanned.1 scanned.2 [staleRow, lastRow] through.1 through.2 := by
  have first : (next scanned).1 = .ok (some staleRow) := by cbv
  have second : (next (next scanned).2).1 = .ok (some lastRow) := by cbv
  have third : (next (next (next scanned).2).2).1 = .ok none := by cbv
  unfold through
  exact .pull first (.pull second (.stop third))

theorem drains_scannedAnew : ∃ now after,
    Drains Store.onlyFlags scannedAnew.1 scannedAnew.2 [lastRow] now after := by
  have first : (next scannedAnew).1 = .ok (some lastRow) := by cbv
  have second : (next (next scannedAnew).2).1 = .ok none := by cbv
  exact ⟨_, _, .pull first (.stop second)⟩

theorem unchanged_through : scanning.2.decodeFile .flags = .ok [lastRow] ∧
    through.2.decodeFile .flags = .ok [lastRow] ∧
      through.2.pool.hasDirty TableFile.flags.id = false :=
  ⟨by cbv, by cbv, by cbv⟩

/-- **A row that a new scan does not find.**  A table was not replaced, and its two rows went
with its file, but the page of one of them is still resident.  A scan that is rewound answers
its row, and evicts the page on the way.  A new scan does not find it, although nobody has
changed anything in between. -/
theorem rewound_unlike_new :
    Used Store.onlyFlags true scanning.1 scanning.2 ∧
      (rewind scanning).1 = .ok () ∧
      Drains Store.onlyFlags scanned.1 scanned.2 [staleRow, lastRow] through.1 through.2 ∧
      (scanning.2.decodeFile .flags = .ok [lastRow] ∧ through.2.decodeFile .flags = .ok [lastRow] ∧
        through.2.pool.hasDirty TableFile.flags.id = false) ∧
      (start (.new ⟨3⟩ (.scan TableFile.flags.id), through.2)).1 = .ok () ∧
      ∃ now after, Drains Store.onlyFlags scannedAnew.1 scannedAnew.2 [lastRow] now after := by
  have back : (rewind scanning).1 = .ok () := by cbv
  have anew : (start (.new ⟨3⟩ (.scan TableFile.flags.id), through.2)).1 = .ok () := by cbv
  exact ⟨used_scanning, back, drains_scanned, unchanged_through, anew, drains_scannedAnew⟩

end Running

end RowStore
