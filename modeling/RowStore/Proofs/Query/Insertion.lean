/-
# RowStore.Proofs.Query.Insertion -- inserting the rows of another table

An insert takes the rows of its child one by one, and each is stored before the child goes on.
The child does not notice, as long as it does not scan the table itself: the files and the
unwritten changes of all other tables stay as they are (`Beside`), so the rows that it has still
to answer stay the same (`Plan.ahead_beside`).  In a legible table each row gets the first slot
that is free at its turn, and the rows are those that the child has at the beginning
(`inserts_child`).

A refusal to replace a table leaves pages resident that are not in its file any more.  The rows
on such pages are lost when the inserts evict them (`rows_left_out`).
-/
import RowStore.Proofs.Catalog.Inverse
import RowStore.Proofs.Query.Deletion

namespace RowStore

set_option autoImplicit false

open RowStore.Action

/-! ## Changes of one table -/

namespace Store

variable {s mid after : Store} {table : TableId} {file : TableFile} {txn : TxnId}

/-- The files of all other tables, and the changes of them that are not written, are as they
were. -/
structure Beside (table : TableId) (s after : Store) : Prop where
  tables : s.SameTables after
  content : ∀ other held, s.catalog.file other = .ok held → other ≠ table →
    after.disk.content held.path = s.disk.content held.path
  unwritten : ∀ id, id.table ≠ table → after.unwritten id = s.unwritten id

theorem Beside.refl (table : TableId) (s : Store) : Beside table s s :=
  ⟨.refl s, fun _ _ _ _ => rfl, fun _ _ => rfl⟩

theorem Beside.trans (first : Beside table s mid) (second : Beside table mid after) :
    Beside table s after := by
  refine ⟨first.tables.trans second.tables, fun other held listed apart => ?_, fun id apart => ?_⟩
  · have again : mid.catalog.file other = .ok held := by rw [first.tables.catalog, listed]
    exact (second.content other held again apart).trans (first.content other held listed apart)
  · exact (second.unwritten id apart).trans (first.unwritten id apart)

theorem Beside.of_still {files : TableId → Option TableFile} (still : s.Still files after)
    (table : TableId) : Beside table s after :=
  ⟨⟨still.settings, by rw [still.disk], still.catalog⟩, fun _ _ _ _ => by rw [still.disk],
    fun id _ => still.changes id⟩

theorem Still.seen {files : TableId → Option TableFile} (still : s.Still files after)
    (tables : s.catalog.Proper) (owner : TxnId) : after.seen owner = s.seen owner := by
  funext id
  refine seen_congr tables still.catalog ?_ (filePage_congr still.disk)
  rw [draft, draft, still.changes]

/-- The rows on the pages of another table. -/
theorem Beside.rowsOn (beside : Beside table s after) (listed : s.catalog.file file.id = .ok file)
    (apart : file.id ≠ table) (pages : List Nat) : after.rowsOn file pages = s.rowsOn file pages := by
  have read := (views_of_content (beside.content _ file listed apart)).2.2
  induction pages with
  | nil => rfl
  | cons number rest ih =>
      rw [Store.rowsOn, Store.rowsOn, ih]
      unfold rowsAt pageAt
      rw [beside.unwritten ⟨file.id, number⟩ apart, read]

/-- **An insert** changes its table only. -/
theorem Legible.insert_beside (legible : s.Legible file) {values : List Value} {id : RecordId}
    (run : StoreAction.insertRow txn file.id values s = (.ok id, after)) :
    Beside file.id s after := by
  have ok := legible.mirrored.toOrderly
  have tables := sameTables_insertRow ok.pool run
  have allots := (legible.insert_allots run).1
  refine ⟨tables, fun other held listed apart => ?_, fun page elsewhere => ?_⟩
  · have files : held ≠ file := by
      rintro rfl
      exact apart (ok.tables other held listed).1.symm
    have paths : held.path ≠ file.path := fun same =>
      files (ok.tables.path_inj listed legible.registered same)
    cases allots with
    | first _ disk => rw [disk]
    | appended _ _ disk =>
        rw [disk]
        exact content_putImage_ne s _ paths
  · rcases StoreAction.insertRow_tried legible run with
      ⟨cause, -, same, -⟩ | ⟨-, number, base, reply, comes, -, tried, same⟩
    · cases same
    have before : base.unwritten page = s.unwritten page := by
      cases comes with
      | old reads => exact unwritten_walks reads.walk page
      | @new mid reads => exact (unwritten_walks reads.walk page : mid.unwritten page = _)
    cases tried with
    | stopped => cases same
    | refused => cases same
    | @stored frame _ _ _ _ own _ _ changes =>
        obtain ⟨mid, reads, -, -, replaces⟩ := changes
        have other : page ≠ frame.id := by
          rintro rfl
          exact elsewhere (by rw [own])
        rw [← before, ← unwritten_walks reads.walk page]
        unfold unwritten
        rw [replaces.residents, if_neg other]

end Store

/-! ## Children that do not notice -/

namespace Plan

/-- The plan takes rows from this table. -/
def Scans (table : TableId) : Plan → Prop
  | .scan other => other = table
  | .rows _ _ => False
  | .filter child _ | .aggregate child _ | .insert _ child | .delete child => child.Scans table

variable {files : TableId → Option TableFile} {s after : Store} {table : TableId}

/-- **What a plan has still to answer** does not depend on a table that it does not scan. -/
theorem ahead_beside {p : Plan} (apart : ¬ p.Scans table) (beside : Store.Beside table s after)
    (known : ∀ other held, s.catalog.file other = .ok held ↔ files other = some held)
    {st : p.State} {rows? : Option (List Row)} (before : p.ahead files s st rows?) :
    p.ahead files after st rows? := by
  induction p generalizing rows? with
  | scan other =>
      obtain ⟨c, there, on, rfl⟩ := before
      obtain rfl := on.own
      have listed := (known _ _).2 on.listed
      have count := (Store.views_of_content (beside.content _ _ listed apart)).2.1
      refine ⟨c, there, ⟨on.isOpen, rfl, on.listed, by rw [count]; exact on.known⟩, ?_⟩
      rw [Cursor.ahead, Cursor.ahead, beside.rowsOn listed apart, count]
  | rows schema given => exact before
  | filter child predicate ih =>
      obtain ⟨ready, given?, before, rfl⟩ := before
      exact ⟨ready, given?, ih apart before, rfl⟩
  | aggregate child a ih =>
      obtain ⟨ready, before⟩ := before
      refine ⟨ready, ?_⟩
      split at before
      · exact before
      · obtain ⟨given?, before, rfl⟩ := before
        exact ⟨given?, ih apart before, rfl⟩
  | insert table child => exact before.elim
  | delete child => exact before.elim

end Plan

/-! ### Reading keeps a store mirrored -/

namespace Cursor

variable {c now : Cursor} {s after : Store} {answer : Option Row}

theorem mirrored_advance {bound : Nat} (mirrored : s.Mirrored)
    (run : Cursor.advance bound (c, s) = (.ok answer, now, after)) : after.Mirrored := by
  induction bound generalizing c s with
  | zero => cases run
  | succ bound ih =>
      rw [advance_succ] at run
      split at run
      · cases run
        exact mirrored
      · rcases read : StoreAction.readPage c.txn ⟨c.file.id, c.nextPage⟩ .shared s with
          ⟨_ | frame, mid⟩ <;> rw [read] at run
        · cases run
        have reads := (StoreAction.readPage_spec mirrored.pool read).1
        have still := mirrored.effects (Store.Walks.effects reads.walk)
        simp only at run
        split at run
        · cases run
        · exact ih still run
        · cases run
          exact still

theorem mirrored_next (mirrored : s.Mirrored)
    (run : Cursor.next (c, s) = (.ok answer, now, after)) : after.Mirrored := by
  rw [next_apply] at run
  split at run
  · cases run
  · split at run
    · cases run
      exact mirrored
    · exact mirrored_advance mirrored run

end Cursor

namespace Source

/-- Calls that do not fail leave a mirrored store mirrored. -/
structure Mirrors {σ : Type} (source : Source σ) : Prop where
  start : ∀ {st now : σ} {s after : Store}, s.Mirrored →
    source.start (st, s) = (.ok (), now, after) → after.Mirrored
  next : ∀ {bound : Nat} {st now : σ} {s after : Store} {answer : Option Row}, s.Mirrored →
    source.next bound (st, s) = (.ok answer, now, after) → after.Mirrored

variable {σ β : Type} {child : Source σ}

theorem mirrors_scan (txn : TxnId) (table : TableId) : Mirrors (scan txn table) where
  start := by
    intro st now s after mirrored run
    rw [scan_start] at run
    split at run
    · cases run
      exact mirrored
    · split at run <;> cases run
      exact mirrored
  next := by
    intro bound st now s after answer mirrored run
    rw [scan_next, onCursor_apply] at run
    split at run
    · cases run
    · rename_i c there
      rcases tried : Cursor.next (c, s) with ⟨reply, d, between⟩
      rw [tried] at run
      cases run
      exact Cursor.mirrored_next mirrored tried

theorem mirrors_ofRows (schema : Schema) (given : List (List Value)) :
    Mirrors (ofRows schema given) where
  start := by
    intro left now s after mirrored run
    rcases ofRows_start_cases schema given left s with ⟨_, _, _, _, failed⟩ | ⟨-, done⟩
    · rw [failed] at run
      cases run
    · rw [done] at run
      cases run
      exact mirrored
  next := by
    intro bound left now s after answer mirrored run
    rw [ofRows_next] at run
    split at run <;> cases run <;> exact mirrored

theorem Mirrors.firstHolding (mirrors : Mirrors child) {predicate : Predicate} {bound turns : Nat}
    {c now : σ} {s after : Store} {answer : Option Row} (mirrored : s.Mirrored)
    (run : Source.firstHolding (child.next bound) predicate turns (c, s) =
      (.ok answer, now, after)) : after.Mirrored := by
  induction turns generalizing c s with
  | zero => cases run
  | succ turns ih =>
      rw [firstHolding_succ] at run
      rcases tried : child.next bound (c, s) with ⟨_ | _ | row, d, between⟩ <;> rw [tried] at run
      · cases run
      all_goals have still := mirrors.next mirrored tried
      · cases run
        exact still
      · simp only at run
        split at run
        · cases run
          exact still
        · exact ih still run

theorem mirrors_filter (mirrors : Mirrors child) (predicate : Predicate) :
    Mirrors (filter child predicate) where
  start := by
    intro st now s after mirrored run
    rw [filter_start] at run
    split at run
    · cases run
      exact mirrored
    · rcases began : child.start (st.child, s) with ⟨_ | ⟨⟩, c, between⟩ <;> rw [began] at run
      · cases run
      · have still := mirrors.start mirrored began
        simp only at run
        split at run <;> cases run
        exact still
  next := by
    intro bound st now s after answer mirrored run
    rw [filter_next] at run
    split at run
    · rcases searched : Source.firstHolding (child.next bound) predicate bound (st.child, s) with
        ⟨reply, c, between⟩
      rw [searched] at run
      cases run
      exact mirrors.firstHolding mirrored searched
    · cases run

theorem Mirrors.foldRows (mirrors : Mirrors child) {fold : β → Row → Except Stop β}
    {bound turns : Nat} {acc result : β} {c now : σ} {s after : Store} (mirrored : s.Mirrored)
    (run : Step.foldRows (child.next bound) (fun acc row => MonadExcept.ofExcept (fold acc row))
      turns acc (c, s) = (.ok result, now, after)) : after.Mirrored := by
  induction turns generalizing c s acc with
  | zero => cases run
  | succ turns ih =>
      rw [Step.foldRows_succ] at run
      rcases tried : child.next bound (c, s) with ⟨_ | _ | row, d, between⟩ <;> rw [tried] at run
      · cases run
      all_goals have still := mirrors.next mirrored tried
      · cases run
        exact still
      · simp only [Step.except_apply] at run
        cases folded : fold acc row with
        | error stop =>
            rw [folded] at run
            cases run
        | ok acc =>
            rw [folded] at run
            exact ih still run

theorem mirrors_aggregate (mirrors : Mirrors child) (a : Aggregation) :
    Mirrors (aggregate child a) where
  start := by
    intro st now s after mirrored run
    rw [aggregate_start] at run
    split at run
    · cases run
      exact mirrored
    · rcases began : child.start (st.inner.child, s) with ⟨_ | ⟨⟩, c, between⟩ <;> rw [began] at run
      · cases run
      · have still := mirrors.start mirrored began
        simp only at run
        split at run <;> cases run
        exact still
  next := by
    intro bound st now s after answer mirrored run
    rw [aggregate_next] at run
    split at run
    · rcases worked : pending child a bound st.results? (st.inner.child, s) with
        ⟨_ | rows, c, between⟩ <;> rw [worked] at run
      · cases run
      cases run
      cases there : st.results? with
      | some left =>
          rw [there] at worked
          cases worked
          exact mirrored
      | none =>
          rw [there, pending, compute_apply] at worked
          rcases grouped : Step.foldRows (child.next bound)
            (fun groups row => MonadExcept.ofExcept (a.addRow groups row)) bound ∅
              (st.inner.child, s) with ⟨_ | groups, d, store⟩ <;> rw [grouped] at worked
          · cases worked
          · cases congrArg Prod.snd worked
            exact mirrors.foldRows mirrored grouped
    · cases run

end Source

theorem Plan.mirrors (txn : TxnId) {p : Plan} (readOnly : p.ReadOnly) :
    Source.Mirrors (p.source txn) := by
  induction p with
  | scan table => exact Source.mirrors_scan txn table
  | rows schema given => exact Source.mirrors_ofRows schema given
  | filter child predicate ih => exact Source.mirrors_filter (ih readOnly) predicate
  | aggregate child a ih => exact Source.mirrors_aggregate (ih readOnly) a
  | insert table child => exact readOnly.elim
  | delete child => exact readOnly.elim

/-! ## Sweeps of inserts -/

theorem Source.insertRow_of_edit {txn : TxnId} {table : TableId} {row : Row} {s after : Store}
    (run : (do
      let _ ← StoreAction.insertRow txn table row.values : StoreAction Unit) s = (.ok (), after)) :
    ∃ id, StoreAction.insertRow txn table row.values s = (.ok id, after) := by
  rcases bind_cases run with ⟨_, -, failed⟩ | ⟨id, stored, inserted, done⟩
  · cases failed
  · cases done
    exact ⟨id, inserted⟩

namespace Plan

open Source

variable {files : TableId → Option TableFile} {s after : Store} {file : TableFile} {txn : TxnId}

/-- **A sweep of inserts** over a plan that does not scan the table takes the rows that the plan
has still to answer, and stores each in the first slot that is free at its turn. -/
theorem insert_sweep {p : Plan} {bound : Nat} {st now : p.State} {rows : List Row}
    {rows? : Option (List Row)} (readOnly : p.ReadOnly) (apart : ¬ p.Scans file.id)
    (sweep : Sweep ((p.source txn).next bound)
      (fun row => do
        let _ ← StoreAction.insertRow txn file.id row.values) st s rows now after)
    (legible : s.Legible file) (largest : s.settings.pageSize ≤ Settings.largestPage)
    (known : ∀ other held, s.catalog.file other = .ok held ↔ files other = some held)
    (before : p.ahead files s st rows?) :
    rows? = some rows ∧ (s.seen txn).Fills file (rows.map Row.values) (after.seen txn) ∧
      (∀ other, other ≠ txn → after.seen other = s.seen other) ∧ s.Beside file.id after := by
  induction sweep generalizing rows? with
  | @done st now s after last =>
      have faithful := legible.mirrored.faithful largest known
      obtain ⟨still, rfl, -⟩ := (p.foretells txn).next faithful before last
      have seen := still.seen legible.mirrored.tables
      exact ⟨rfl, by rw [seen]; exact .done _, fun other _ => seen other, .of_still still _⟩
  | @row st mid now s between changed after row rows taken edited _ ih =>
      have faithful := legible.mirrored.faithful largest known
      obtain ⟨still, left?, rfl, ahead⟩ := (p.foretells txn).next faithful before taken
      have seen := still.seen legible.mirrored.tables
      have mirrored := (p.mirrors txn readOnly).next legible.mirrored taken
      have here : between.Legible file := by
        refine legible.of_disk mirrored ⟨still.settings, by rw [still.disk], still.catalog⟩ ?_
        rw [(Store.views_congr still.disk file).1]
        exact legible.fits
      obtain ⟨id, inserted⟩ := insertRow_of_edit edited
      obtain ⟨legible', least, shows⟩ := here.insertRow inserted
      have beside := here.insert_beside inserted
      have all := (Store.Beside.of_still still file.id).trans beside
      have known' : ∀ other held, changed.catalog.file other = .ok held ↔ files other = some held := by
        intro other held
        rw [all.tables.catalog, known]
      have known_between : ∀ other held,
          between.catalog.file other = .ok held ↔ files other = some held := by
        intro other held
        rw [still.catalog, known]
      obtain ⟨rfl, fills, others, later⟩ := ih legible' (all.tables.settings ▸ largest) known'
        (ahead_beside apart beside known_between ahead)
      rw [shows.own, seen] at fills
      rw [seen] at least
      refine ⟨rfl, .row least fills, fun other foreign => ?_, all.trans later⟩
      rw [others other foreign, shows.others other foreign, seen]

/-- A plan that only reads, if it is collected, answers its rows. -/
theorem rows_of_collect {p : Plan} (readOnly : p.ReadOnly) (faithful : s.Faithful files)
    {bound : Nat} {now : p.State} {rows : List Row}
    (run : (p.source txn).collect bound (p.initial, s) = (.ok rows, now, after)) :
    p.rows? files s = some rows := by
  rw [collect_apply] at run
  rcases started : (p.source txn).start (p.initial, s) with ⟨_ | ⟨⟩, mid, between⟩ <;>
    rw [started] at run
  · cases run
  obtain ⟨still, ahead⟩ := ahead_of_start readOnly faithful started
  simp only at run
  rcases taken : Step.foldRows ((p.source txn).next bound) (fun acc row => return row :: acc)
    bound [] (mid, between) with ⟨_ | listed, last⟩ <;> rw [taken] at run <;> cases run
  have listing : Step.foldRows ((p.source txn).next bound)
      (fun acc row => MonadExcept.ofExcept (.ok (row :: acc))) bound [] (mid, between) =
        (.ok listed, now, after) := taken
  obtain ⟨-, given, same, folded⟩ := (p.foretells txn).foldRows still.faithful ahead listing
  have reversed : ∀ (rows acc : List Row),
      rows.foldlM (fun acc row => Except.ok (row :: acc)) acc =
        (Except.ok (rows.reverse ++ acc) : Except Stop (List Row)) := by
    intro rows
    induction rows with
    | nil => exact fun acc => rfl
    | cons row rest ih =>
        intro acc
        rw [List.foldlM_cons]
        exact (ih (row :: acc)).trans (by simp)
  rw [reversed] at folded
  cases folded
  rw [same]
  simp

/-- What an insert does before it takes the first row. -/
theorem insert_prepare {σ : Type} {child : Source σ} {table : TableId} {st now : σ}
    (run : (do
      child.start
      let expected := (← Step.onStore (StoreAction.tableFile table)).schema.types
      let given := (child.schema (← Step.own)).types
      if given ≠ expected then Step.fail (.badShape (.insertTypes given table expected)) :
        Step σ Unit) (st, s) = (.ok (), now, after)) :
    child.start (st, s) = (.ok (), now, after) := by
  rw [bind_apply] at run
  rcases started : child.start (st, s) with ⟨_ | ⟨⟩, mid, between⟩ <;> rw [started] at run
  · cases run
  simp only [bind_apply, Step.onStore_apply, StoreAction.tableFile, StoreAction.query_apply] at run
  cases listed : between.catalog.file table with
  | error fault =>
      rw [listed] at run
      cases run
  | ok file =>
      simp only [listed, Except.mapError, Step.own_apply] at run
      split at run <;> cases run
      rfl

end Plan

namespace Running

variable {files : TableId → Option TableFile} {s after : Store} {file : TableFile} {txn : TxnId}
  {child : Plan} {answers : List Row} {ended : Running}

/-- **Inserting the rows of a plan.**  If an insert of the rows of a plan that only reads, and
does not scan the table, is collected, it answers how many rows the plan has, and these are the
rows that the plan answers when it is collected alone.  They are stored one after the other, each
in the first slot that its transaction sees free at its turn: it sees every row in the table that
it saw before, and each new row once.  No other table has changed, in its file or in what is not
written yet, and no other transaction sees any difference. -/
theorem inserts_child (legible : s.Legible file)
    (largest : s.settings.pageSize ≤ Settings.largestPage)
    (known : ∀ other held, s.catalog.file other = .ok held ↔ files other = some held)
    (readOnly : child.ReadOnly) (apart : ¬ child.Scans file.id)
    (run : collect (.new txn (.insert file.id child), s) = (.ok answers, ended, after)) :
    ∃ rows, child.rows? files s = some rows ∧
      (∀ alone now last, collect (.new txn child, s) = (.ok alone, now, last) → alone = rows) ∧
      answers = [Source.countRow rows] ∧
      (s.seen txn).Fills file (rows.map Row.values) (after.seen txn) ∧
      (∃ places : List (RecordId × List Value), places.map Prod.snd = rows.map Row.values ∧
        (places.map Prod.fst).Nodup ∧
        (∀ place ∈ places, place.1.page.table = file.id ∧ s.seen txn place.1 = none) ∧
        ∀ id values, after.seen txn id = some values ↔
          s.seen txn id = some values ∨ (id, values) ∈ places) ∧
      (∀ id, id.page.table ≠ file.id → after.seen txn id = s.seen txn id) ∧
      (∀ other, other ≠ txn → after.seen other = s.seen other) ∧ s.Beside file.id after := by
  have faithful := legible.mirrored.faithful largest known
  obtain ⟨state, -, ran⟩ := perform_cases run
  obtain ⟨mid, between, now, rows, prepared, sweep, -, rfl, -⟩ :=
    (Source.collect_change_iff (Plan.one_lt_rowBound _ s)).1 ran
  have started := Plan.insert_prepare prepared
  obtain ⟨still, ahead⟩ := Plan.ahead_of_start readOnly faithful started
  have mirrored := (child.mirrors txn readOnly).start legible.mirrored started
  have tables : s.SameTables between := ⟨still.settings, by rw [still.disk], still.catalog⟩
  have here : between.Legible file := by
    refine legible.of_disk mirrored tables ?_
    rw [(Store.views_congr still.disk file).1]
    exact legible.fits
  have seen := still.seen legible.mirrored.tables
  have known' : ∀ other held, between.catalog.file other = .ok held ↔ files other = some held := by
    intro other held
    rw [still.catalog, known]
  obtain ⟨listed, fills, others, beside⟩ := Plan.insert_sweep readOnly apart sweep here
    (still.settings ▸ largest) known' ahead
  rw [seen] at fills
  refine ⟨rows, listed, fun alone now last collected => ?_, rfl, fills, fills.places,
    fun id elsewhere => fills.elsewhere elsewhere, fun other foreign => ?_,
    (Store.Beside.of_still still file.id).trans beside⟩
  · obtain ⟨_, -, ran⟩ := perform_cases collected
    have again := Plan.rows_of_collect readOnly faithful ran
    rw [listed] at again
    exact (Option.some.inj again).symm
  · rw [others other foreign, seen]

end Running

/-! ## Flags and marks -/

/-- A table like that of the flags. -/
def TableFile.marks : TableFile :=
  ⟨TableId.ofPath "/marks.dat", "/marks.dat", TableFile.flags.schema, 2⟩

theorem locate_marks (d : Disk) : d.locate "marks.dat" = .ok "/marks.dat" := by
  have names : Path.names "marks.dat" = ["marks.dat"] := by
    unfold Path.names String.splitOn
    rw [if_neg (by decide)]
    iterate 10 rw [String.splitOnAux]
    decide +kernel
  exact locate_of_names d names (by cbv) (by cbv) (by cbv)

namespace Store

def beforeTables : Store := ⟨⟨"", 2, 3⟩, .new "", .empty, .empty, .new 3, .start⟩

/-- A store with two tables, and frames for three pages. -/
def twoTables : Store :=
  { beforeTables with
    disk := ((Disk.new "").write "/flags.dat" .empty).write "/marks.dat" .empty
    catalog := (Catalog.empty.add "flags" .flags).add "marks" .marks }

def twoFiles (table : TableId) : Option TableFile :=
  if table = TableFile.marks.id then some .marks else onlyFlags table

/-- The store before its second table. -/
def oneTable : Store :=
  { beforeTables with
    disk := (Disk.new "").write "/flags.dat" .empty
    catalog := Catalog.empty.add "flags" .flags }

theorem opened_beforeTables : openOn ⟨"", 2, 3⟩ (.new "") = .ok beforeTables := rfl

theorem created_oneTable :
    (StoreAction.createTable "flags" TableFile.flags.schema beforeTables).2 = oneTable := by
  have path : beforeTables.settings.tablePath "flags" = "flags.dat" := by cbv
  have fits : TableFile.at? "/flags.dat" TableFile.flags.schema beforeTables.settings.pageSize =
      .ok .flags := rfl
  rw [createTable_eq rfl (path.symm ▸ locate_flags _) fits (Pool.residents_new 3)]
  rfl

theorem created_twoTables :
    (StoreAction.createTable "marks" TableFile.marks.schema oneTable).2 = twoTables := by
  have path : oneTable.settings.tablePath "marks" = "marks.dat" := by cbv
  have fits : TableFile.at? "/marks.dat" TableFile.marks.schema oneTable.settings.pageSize =
      .ok .marks := rfl
  rw [createTable_eq (by cbv) (path.symm ▸ locate_marks _) fits (Pool.residents_new 3)]
  rfl

theorem prepared_twoTables : twoTables.Prepared := by
  have flags := (Prepared.opened opened_beforeTables).created "flags" TableFile.flags.schema
  rw [created_oneTable] at flags
  have marks := flags.created "marks" TableFile.marks.schema
  rw [created_twoTables] at marks
  exact marks

theorem listed_twoTables (other : TableId) (held : TableFile) :
    twoTables.catalog.file other = .ok held ↔ twoFiles other = some held := by
  have known : twoTables.catalog.file other =
      if other = TableFile.marks.id then .ok .marks
        else if other = TableFile.flags.id then .ok .flags
          else .error (.tableNotFound other) := by
    rw [show twoTables.catalog = (Catalog.empty.add "flags" .flags).add "marks" .marks from rfl,
      Catalog.file_add_new (by cbv), Catalog.file_add_new rfl]
    rfl
  rw [known, twoFiles, onlyFlags]
  split_ifs <;> simp

theorem settled_twoTables : twoTables.Settled twoFiles := by
  have first : oneTable.Fits twoFiles := by
    intro table file found
    rcases Catalog.file_add found with ⟨rfl, rfl⟩ | other
    · cbv
    · cases other
  have second : twoTables.Fits twoFiles := fun table file found =>
    (listed_twoTables table file).1 found
  have flags := @Meanwhile.created twoFiles beforeTables "flags" TableFile.flags.schema
  rw [created_oneTable] at flags
  have marks := @Meanwhile.created twoFiles oneTable "marks" TableFile.marks.schema
  rw [created_twoTables] at marks
  exact ((Settled.opened opened_beforeTables).later (flags first)).later (marks second)

end Store

namespace Running

/-- Two flags that are set were committed, each on a page of its own. -/
def bothSet : Store :=
  ((Store.twoTables.carryOut ⟨1⟩ (.insert TableFile.flags.id [.bool true])).carryOut ⟨1⟩
    (.insert TableFile.flags.id [.bool true])).carryOut ⟨1⟩ (.complete true)

theorem listed_bothSet (other : TableId) (held : TableFile) :
    bothSet.catalog.file other = .ok held ↔ Store.twoFiles other = some held := by
  have same : bothSet.catalog = Store.twoTables.catalog := by cbv
  rw [same, Store.listed_twoTables]

theorem legible_bothSet : bothSet.Legible .marks := by
  have reachable : bothSet.Reachable :=
    (((Store.Reachable.prepared Store.prepared_twoTables).called _ _).called _ _).called _ _
  have listed : bothSet.catalog.file TableFile.marks.id = .ok .marks :=
    (listed_bothSet _ _).2 (if_pos rfl)
  have whole : bothSet.wholePages .marks = 0 := by cbv
  exact (reachable.legible listed (by rw [whole]; decide)).1

/-- Mark what has a flag. -/
def markFlags : Plan := .insert TableFile.marks.id (.scan TableFile.flags.id)

theorem inserts_child_flags : ∃ ended after,
    collect (.new ⟨2⟩ markFlags, bothSet) = (.ok [Row.fresh [.int 2]], ended, after) ∧
      (bothSet.seen ⟨2⟩).Fills .marks [[.bool true], [.bool true]] (after.seen ⟨2⟩) := by
  have collected : (collect (.new ⟨2⟩ markFlags, bothSet)).1 = .ok [Row.fresh [.int 2]] := by cbv
  have alone : (collect (.new ⟨2⟩ (.scan TableFile.flags.id), bothSet)).1 =
      .ok [Cursor.flagRow 0 true, Cursor.flagRow 1 true] := by cbv
  have small : bothSet.settings.pageSize ≤ Settings.largestPage := by cbv
  have apart : ¬ (Plan.scan TableFile.flags.id).Scans TableFile.marks.id := by
    show TableFile.flags.id ≠ TableFile.marks.id
    decide
  obtain ⟨⟨ended, after⟩, run⟩ : ∃ w, collect (.new ⟨2⟩ markFlags, bothSet) =
      (.ok [Row.fresh [.int 2]], w) := ⟨_, Prod.fst_eq_iff.1 collected⟩
  obtain ⟨⟨now, last⟩, plain⟩ : ∃ w, collect (.new ⟨2⟩ (.scan TableFile.flags.id), bothSet) =
      (.ok [Cursor.flagRow 0 true, Cursor.flagRow 1 true], w) := ⟨_, Prod.fst_eq_iff.1 alone⟩
  have readOnly : (Plan.scan TableFile.flags.id).ReadOnly := trivial
  obtain ⟨rows, -, all, -, fills, -⟩ :=
    inserts_child legible_bothSet small listed_bothSet readOnly apart run
  obtain rfl := all _ _ _ plain
  exact ⟨ended, after, run, fills⟩

theorem refused_bothSet : ∃ stop, StoreAction.createTable "flags" Store.names bothSet =
    (.error stop, bothSet.cleared "/flags.dat") := by
  have known : bothSet.catalog.idOf "flags" = .ok TableFile.flags.id := by cbv
  have clean : bothSet.pool.hasDirty TableFile.flags.id = false := by cbv
  have path : bothSet.settings.tablePath "flags" = "flags.dat" := by cbv
  have narrow : slotCount bothSet.settings.pageSize Store.names.rowBytes = 0 := by cbv
  refine Store.createTable_narrow (fun id found => ?_) (path.symm ▸ locate_flags _) narrow
  rw [known] at found
  cases found
  exact clean

/-- Their file was emptied by a refusal, and then a flag that is not set was committed. -/
def halfLost : Store :=
  ((bothSet.cleared "/flags.dat").carryOut ⟨2⟩
    (.insert TableFile.flags.id [.bool false])).carryOut ⟨2⟩ (.complete true)

theorem settled_halfLost : halfLost.Settled Store.twoFiles := by
  have before : bothSet.Settled Store.twoFiles :=
    ((Store.settled_twoTables.later (.called _ _ _)).later (.called _ _ _)).later (.called _ _ _)
  obtain ⟨stop, refused⟩ := refused_bothSet
  exact ((before.refused refused).later (.called _ _ _)).later (.called _ _ _)

/-- **Rows that are left out.**  A table was not replaced, and its rows went with its file, but
their pages are still resident.  A transaction collects a scan of the table, which answers three
rows.  It inserts the rows of the same scan into another table: the insert evicts a page on the
way, and is told that it was two rows. -/
theorem rows_left_out : ∃ now between ended after last,
    halfLost.Settled Store.twoFiles ∧
      collect (.new ⟨3⟩ (.scan TableFile.flags.id), halfLost) =
        (.ok [Cursor.flagRow 0 true, Cursor.flagRow 1 true, Cursor.flagRow 2 false],
          now, between) ∧
      collect (.new ⟨3⟩ markFlags, between) = (.ok [Row.fresh [.int 2]], ended, after) ∧
      StoreAction.scan ⟨3⟩ TableFile.marks.id after =
        (.ok [⟨some ⟨⟨TableFile.marks.id, 0⟩, 0⟩, [.bool true]⟩,
          ⟨some ⟨⟨TableFile.marks.id, 1⟩, 0⟩, [.bool false]⟩], last) := by
  have alone : (collect (.new ⟨3⟩ (.scan TableFile.flags.id), halfLost)).1 =
      .ok [Cursor.flagRow 0 true, Cursor.flagRow 1 true, Cursor.flagRow 2 false] := by cbv
  have marked : (collect (.new ⟨3⟩ markFlags,
      (collect (.new ⟨3⟩ (.scan TableFile.flags.id), halfLost)).2.2)).1 =
        .ok [Row.fresh [.int 2]] := by cbv
  have scanned : (StoreAction.scan ⟨3⟩ TableFile.marks.id (collect (.new ⟨3⟩ markFlags,
      (collect (.new ⟨3⟩ (.scan TableFile.flags.id), halfLost)).2.2)).2.2).1 =
        .ok [⟨some ⟨⟨TableFile.marks.id, 0⟩, 0⟩, [.bool true]⟩,
          ⟨some ⟨⟨TableFile.marks.id, 1⟩, 0⟩, [.bool false]⟩] := by cbv
  obtain ⟨⟨now, between⟩, first⟩ : ∃ w, collect (.new ⟨3⟩ (.scan TableFile.flags.id), halfLost) =
      (.ok [Cursor.flagRow 0 true, Cursor.flagRow 1 true, Cursor.flagRow 2 false], w) :=
    ⟨_, Prod.fst_eq_iff.1 alone⟩
  rw [first] at marked scanned
  obtain ⟨⟨ended, after⟩, second⟩ : ∃ w, collect (.new ⟨3⟩ markFlags, between) =
      (.ok [Row.fresh [.int 2]], w) := ⟨_, Prod.fst_eq_iff.1 marked⟩
  rw [second] at scanned
  exact ⟨now, between, ended, after, _, settled_halfLost, first, second, Prod.fst_eq_iff.1 scanned⟩

end Running

end RowStore
