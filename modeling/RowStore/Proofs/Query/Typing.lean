/-
# RowStore.Proofs.Query.Typing -- the rows of a running plan are rows of its schema

A source goes through two phases.  `sound` says what holds of its state all the time, and
`ready` what a successful start adds.  `Typed` says how the calls move through them: each
keeps both, a start leads to `ready`, and from there on the columns stay what they are, every
row is a row of them, and no call for a row stops because of types.  It is proved for one
operator at a time, from what it says of the child, and for plans by recursion over the tree
(`Plan.typed`).

The columns of a plan are known once it is started, and they are those that the tables have
then.  A table that is given another file later on breaks them, so everything here is said of
steady stores.
-/
import RowStore.Proofs.Query.Steps
import RowStore.Proofs.Store.TypeSafe

namespace RowStore

set_option autoImplicit false

open RowStore.Action

/-- The call answers something of the kind, or it stops for another reason than types. -/
def AnswersIn {α : Type} (Kind : α → Prop) : Except Stop α → Prop
  | .ok a => Kind a
  | .error stop => stop.isTypeError = false

theorem answersIn_mapM {α β : Type} {f : α → Except Fault β} {Kind : β → Prop} {l : List α}
    (each : ∀ a ∈ l, AnswersIn Kind ((f a).mapError Stop.fault)) :
    AnswersIn (fun bs => ∀ b ∈ bs, Kind b) ((l.mapM f).mapError Stop.fault) := by
  induction l with
  | nil => exact nofun
  | cons a rest ih =>
      have first := each a List.mem_cons_self
      have others := ih fun b member => each b (List.mem_cons_of_mem _ member)
      rw [List.mapM_cons]
      cases answered : f a with
      | error fault =>
          rw [answered] at first
          exact first
      | ok b =>
          rw [answered] at first
          cases later : rest.mapM f with
          | error fault =>
              rw [later] at others
              exact others
          | ok bs =>
              rw [later] at others
              intro other member
              rcases List.mem_cons.1 member with rfl | member
              · exact first
              · exact others other member

namespace Schema

/-- If there is a row, it is one of the schema. -/
def Admits (schema : Schema) (row? : Option Row) : Prop :=
  ∀ row ∈ row?, schema.check row.values = .ok ()

theorem value?_of_check {schema : Schema} {row : Row} (checked : schema.check row.values = .ok ())
    {index : Nat} {column : Column} (known : schema.column? index = some column) :
    ∃ v, row.value? index = some v ∧ v.type = column.type := by
  have types := check_eq_ok_iff.1 checked
  have here : (row.values.map Value.type)[index]? = schema.types[index]? := by rw [types]
  rw [Schema.types, List.getElem?_map, List.getElem?_map] at here
  rw [column?] at known
  rw [known, Option.map_some] at here
  exact Option.map_eq_some_iff.1 here

end Schema

/-! ## Aggregation -/

namespace Tally

variable {t : Tally} {op : AggregateFunction}

theorem value_ok {v : Value} (worked : t.value op = .ok v) : ∃ n, v = .int n := by
  unfold value at worked
  simp only at worked
  split at worked <;> cases worked
  exact ⟨_, rfl⟩

theorem value_error {fault : Fault} (failed : t.value op = .error fault) :
    (Stop.fault fault).isTypeError = false := by
  unfold value at failed
  simp only at failed
  split at failed <;> cases failed
  rfl

end Tally

namespace Aggregation

variable {a : Aggregation} {child schema : Schema} {groups : Groups}

theorem outputSchema_cases (known : a.outputSchema child = .ok schema) :
    (∃ column, child.column? a.column = some column) ∧
      (a.groupBy = none ∧ schema.types = [.int] ∨
        ∃ index group, a.groupBy = some index ∧ child.column? index = some group ∧
          schema.types = [group.type, .int]) := by
  unfold outputSchema at known
  split at known
  · cases known
  rename_i column found
  split at known
  · cases known
  cases grouped : a.groupBy with
  | none =>
      simp only [grouped] at known
      cases known
      exact ⟨⟨column, found⟩, Or.inl ⟨rfl, rfl⟩⟩
  | some index =>
      simp only [grouped] at known
      split at known
      · cases known
      rename_i group there
      cases known
      exact ⟨⟨column, found⟩, Or.inr ⟨index, group, rfl, there, rfl⟩⟩

/-- The value that a group goes by is one of the grouping column. -/
def KeyFits (a : Aggregation) (child : Schema) (key : Option Value) : Prop :=
  match a.groupBy with
  | none => key = none
  | some index => ∃ v group, key = some v ∧ child.column? index = some group ∧
      v.type = group.type

def KeysFit (a : Aggregation) (child : Schema) (groups : Groups) : Prop :=
  ∀ key tally, groups.get? key = some tally → a.KeyFits child key

theorem KeyFits.check (known : a.outputSchema child = .ok schema) {key : Option Value}
    (fits : a.KeyFits child key) (n : Int32) :
    schema.check (key.toList ++ [.int n]) = .ok () := by
  refine Schema.check_eq_ok_iff.2 ?_
  unfold KeyFits at fits
  rcases outputSchema_cases known with ⟨-, ⟨lone, types⟩ | ⟨index, group, grouped, there, types⟩⟩
  · simp only [lone] at fits
    rw [types, fits]
    rfl
  · simp only [grouped, there] at fits
    obtain ⟨v, held, rfl, same, type⟩ := fits
    cases same
    rw [types, ← type]
    rfl

theorem keyOf_fits (known : a.outputSchema child = .ok schema) {row : Row}
    (checked : child.check row.values = .ok ()) :
    ∃ key, a.keyOf row = .ok key ∧ a.KeyFits child key := by
  unfold keyOf KeyFits
  rcases outputSchema_cases known with ⟨-, ⟨lone, -⟩ | ⟨index, group, grouped, there, -⟩⟩
  · exact ⟨none, by simp only [lone], by simp only [lone]⟩
  · obtain ⟨v, found, type⟩ := Schema.value?_of_check checked there
    exact ⟨some v, by simp only [grouped, found], by
      simp only [grouped, there]
      exact ⟨v, group, rfl, rfl, type⟩⟩

/-- **A row of the child has the columns that the aggregate looks at.** -/
theorem addRow_fits (known : a.outputSchema child = .ok schema) {row : Row}
    (fits : a.KeysFit child groups) (checked : child.check row.values = .ok ()) :
    ∃ after, a.addRow groups row = .ok after ∧ a.KeysFit child after := by
  obtain ⟨⟨column, found⟩, -⟩ := outputSchema_cases known
  obtain ⟨v, value, -⟩ := Schema.value?_of_check checked found
  obtain ⟨key, same, keyFits⟩ := keyOf_fits known checked
  unfold addRow
  rw [same, value]
  refine ⟨_, rfl, fun other tally there => ?_⟩
  rw [FinMap.get?_insert] at there
  split at there
  · rename_i here
    exact here ▸ keyFits
  · exact fits other tally there

theorem keysFit_empty : a.KeysFit child ∅ := fun key tally there => by
  rw [FinMap.get?_empty] at there
  cases there

/-- The results are rows of the output, unless one is too large. -/
theorem results_fits (known : a.outputSchema child = .ok schema) (fits : a.KeysFit child groups) :
    AnswersIn (fun rows => ∀ row ∈ rows, schema.check row.values = .ok ())
      ((a.results groups).mapError Stop.fault) := by
  refine answersIn_mapM fun entry member => ?_
  have first := fits entry.1 entry.2 (FinMap.mem_entries.1 member)
  cases worked : entry.2.value a.op with
  | ok v =>
      obtain ⟨n, rfl⟩ := Tally.value_ok worked
      simp only [worked]
      exact first.check known n
  | error fault =>
      simp only [worked]
      exact Tally.value_error worked

end Aggregation

/-! ## Phases -/

namespace Source

/-- What holds of the states of a source, and what of those that were started. -/
structure Phases (σ : Type) where
  sound : σ → Prop
  ready : σ → Prop

/-- What a call leaves. -/
structure Kept {σ : Type} (files : TableId → Option TableFile) (source : Source σ) (ph : Phases σ)
    (st now : σ) (after : Store) : Prop where
  sound : ph.sound now
  steady : after.Steady files
  ready : ph.ready st → ph.ready now ∧ source.schema now = source.schema st

/-- How the calls of a source go through its phases. -/
structure Typed {σ : Type} (files : TableId → Option TableFile) (source : Source σ)
    (ph : Phases σ) : Prop where
  start : ∀ {st now s after answer}, ph.sound st → s.Steady files →
    source.start (st, s) = (answer, now, after) →
      Kept files source ph st now after ∧ (answer.isOk → ph.ready now)
  next : ∀ {bound st now s after answer}, ph.sound st → s.Steady files →
    source.next bound (st, s) = (answer, now, after) →
      Kept files source ph st now after ∧
        (ph.ready st → AnswersIn (source.schema st).Admits answer)
  rewind : ∀ {st now s after answer}, ph.sound st → s.Steady files →
    source.rewind (st, s) = (answer, now, after) → Kept files source ph st now after

variable {σ β : Type} {files : TableId → Option TableFile} {source child : Source σ}
  {ph : Phases σ} {st mid now : σ} {s after : Store} {bound : Nat}

theorem Kept.refl (sound : ph.sound st) (steady : s.Steady files) :
    Kept files source ph st st s := ⟨sound, steady, fun ready => ⟨ready, rfl⟩⟩

theorem Kept.trans {between : Store} (first : Kept files source ph st mid between)
    (second : Kept files source ph mid now after) : Kept files source ph st now after := by
  refine ⟨second.sound, second.steady, fun ready => ?_⟩
  obtain ⟨still, same⟩ := first.ready ready
  obtain ⟨last, again⟩ := second.ready still
  exact ⟨last, again.trans same⟩

/-- **All rows** of a source that was started are rows of its columns, so the loop over them
does not stop because of types if no step of it does. -/
theorem Typed.foldRows (typed : Typed files source ph) {schema : Schema}
    {fold : β → Row → Step σ β} {Good : β → Prop}
    (turn : ∀ {acc row c s answer now after}, Good acc → schema.check row.values = .ok () →
      s.Steady files → fold acc row (c, s) = (answer, now, after) →
        now = c ∧ after.Steady files ∧ AnswersIn Good answer)
    {turns : Nat} {acc : β} {answer : Except Stop β} (sound : ph.sound st) (ready : ph.ready st)
    (known : source.schema st = schema) (steady : s.Steady files) (good : Good acc)
    (run : Step.foldRows (source.next bound) fold turns acc (st, s) = (answer, now, after)) :
    Kept files source ph st now after ∧ AnswersIn Good answer := by
  induction turns generalizing st s acc with
  | zero =>
      cases run
      exact ⟨.refl sound steady, rfl⟩
  | succ turns ih =>
      rw [Step.foldRows_succ] at run
      rcases tried : source.next bound (st, s) with ⟨reply, c, between⟩
      obtain ⟨kept, admits⟩ := typed.next sound steady tried
      have admits := admits ready
      rw [tried] at run
      rcases reply with stop | _ | row
      · cases run
        exact ⟨kept, admits⟩
      · cases run
        exact ⟨kept, good⟩
      · have checked := admits row rfl
        rw [known] at checked
        simp only at run
        rcases folded : fold acc row (c, between) with ⟨reply, d, store⟩
        obtain ⟨rfl, still, more⟩ := turn good checked kept.steady folded
        rw [folded] at run
        obtain ⟨stays, same⟩ := kept.ready ready
        have kept : Kept files source ph st d store := ⟨kept.sound, still, kept.ready⟩
        cases reply with
        | error stop =>
            cases run
            exact ⟨kept, more⟩
        | ok acc =>
            obtain ⟨last, answers⟩ := ih kept.sound stays (same.trans known) still more run
            exact ⟨kept.trans last, answers⟩

theorem Typed.collect (typed : Typed files source ph) {answer : Except Stop (List Row)}
    (sound : ph.sound st) (steady : s.Steady files)
    (run : source.collect bound (st, s) = (answer, now, after)) :
    Kept files source ph st now after ∧ (answer.isOk → ph.ready now) := by
  unfold Source.collect Step.collectRows at run
  rw [bind_apply] at run
  rcases began : source.start (st, s) with ⟨reply, mid, between⟩
  obtain ⟨kept, ready⟩ := typed.start sound steady began
  rw [began] at run
  cases reply with
  | error stop =>
      cases run
      exact ⟨kept, nofun⟩
  | ok =>
      simp only [bind_apply] at run
      rcases taken : Step.foldRows (source.next bound) (fun acc row => return row :: acc) bound []
        (mid, between) with ⟨reply, last, store⟩
      have begun := ready rfl
      obtain ⟨more, -⟩ : Kept files source ph mid last store ∧ AnswersIn (fun _ => True) reply := by
        refine typed.foldRows (fun _ _ steady folded => ?_) kept.sound begun rfl kept.steady
          trivial taken
        cases folded
        exact ⟨rfl, steady, trivial⟩
      rw [taken] at run
      have still := (more.ready begun).1
      cases reply <;> cases run <;> exact ⟨kept.trans more, fun _ => still⟩

end Source

/-! ## Scans -/

namespace Cursor

/-- The cursor is on the file of the table, and the rows that are ready are rows of it. -/
structure OnTable (files : TableId → Option TableFile) (table : TableId) (c : Cursor) : Prop where
  own : c.file.id = table
  listed : files table = some c.file
  ready : ∀ row ∈ c.ready, c.file.schema.check row.values = .ok ()

variable {files : TableId → Option TableFile} {table : TableId} {c now : Cursor}
  {s after : Store} {answer : Except Stop (Option Row)}

theorem OnTable.advance (on : c.OnTable files table) (steady : s.Steady files) {bound : Nat}
    (run : Cursor.advance bound (c, s) = (answer, now, after)) :
    now.OnTable files table ∧ now.file = c.file ∧ after.Steady files ∧
      AnswersIn c.file.schema.Admits answer := by
  induction bound generalizing c s with
  | zero =>
      cases run
      exact ⟨on, rfl, steady, rfl⟩
  | succ bound ih =>
      have passed : (c.passed (c.reckoned s)).OnTable files table := ⟨on.own, on.listed, on.ready⟩
      rw [advance_succ] at run
      split at run
      · cases run
        exact ⟨⟨on.own, on.listed, on.ready⟩, rfl, steady, nofun⟩
      have safe := StoreAction.typeSafe_readPage steady c.txn ⟨c.file.id, c.nextPage⟩ .shared
      rcases read : StoreAction.readPage c.txn ⟨c.file.id, c.nextPage⟩ .shared s with
        ⟨stop | frame, mid⟩ <;> rw [read] at run
      · cases run
        have walk := (StoreAction.readPage_spec steady.pool read).1.walk
        exact ⟨passed, rfl, steady.walks walk, safe stop (by rw [read])⟩
      obtain ⟨still, file, listed, schema⟩ := StoreAction.schema_of_readPage steady read
      obtain rfl : c.file = file := by
        rw [on.own, on.listed] at listed
        exact Option.some.inj listed
      simp only at run
      split at run
      · rename_i fault failed
        cases run
        exact ⟨passed, rfl, still, Page.rows_error failed⟩
      · have last := ih passed still run
        exact last
      · rename_i row rest rows
        cases run
        have checked := Page.check_of_rows rows
        rw [schema] at checked
        obtain ⟨first, others⟩ := List.forall_mem_cons.1 checked
        refine ⟨⟨on.own, on.listed, others⟩, rfl, still, fun other same => ?_⟩
        cases same
        exact first

theorem OnTable.next (on : c.OnTable files table) (steady : s.Steady files)
    (run : Cursor.next (c, s) = (answer, now, after)) :
    now.OnTable files table ∧ now.file = c.file ∧ after.Steady files ∧
      AnswersIn c.file.schema.Admits answer := by
  rw [next_apply] at run
  split at run
  · cases run
    exact ⟨on, rfl, steady, rfl⟩
  split at run
  · rename_i row rest ready
    cases run
    have checked := on.ready
    rw [ready] at checked
    obtain ⟨first, others⟩ := List.forall_mem_cons.1 checked
    refine ⟨⟨on.own, on.listed, others⟩, rfl, steady, fun other same => ?_⟩
    cases same
    exact first
  · exact on.advance steady run

theorem OnTable.rewind (on : c.OnTable files table) {answer : Except Stop Unit}
    (run : Cursor.rewind (c, s) = (answer, now, after)) :
    now.OnTable files table ∧ now.file = c.file ∧ after = s := by
  rw [rewind_apply] at run
  split at run <;> cases run
  · exact ⟨on, rfl, rfl⟩
  · exact ⟨⟨on.own, on.listed, nofun⟩, rfl, rfl⟩

end Cursor

namespace Source

variable {σ : Type} {files : TableId → Option TableFile} {source child : Source σ}
  {ph : Phases σ} {txn : TxnId} {table : TableId}

def scanPhases (files : TableId → Option TableFile) (table : TableId) : Phases ScanState where
  sound st := ∀ c, st.cursor? = some c → c.OnTable files table ∧ st.schema = c.file.schema
  ready st := st.cursor?.isSome

theorem typed_scan : Typed files (scan txn table) (scanPhases files table) where
  start := by
    intro st now s after answer sound steady run
    rw [scan_start] at run
    split at run
    · rename_i ready
      cases run
      exact ⟨.refl sound steady, fun _ => ready⟩
    · rename_i fresh
      split at run
      · cases run
        exact ⟨.refl sound steady, nofun⟩
      · rename_i file registered
        cases run
        have on : (opened file txn s).OnTable files table :=
          ⟨(steady.tables table file registered).1, steady.fits table file registered, nofun⟩
        refine ⟨⟨fun c same => ?_, steady, fun ready => absurd ready fresh⟩, fun _ => rfl⟩
        cases same
        exact ⟨on, rfl⟩
  next := by
    intro bound st now s after answer sound steady run
    rw [scan_next, onCursor_apply] at run
    split at run
    · rename_i absent
      cases run
      refine ⟨.refl sound steady, fun ready => ?_⟩
      have there : st.cursor?.isSome = true := ready
      rw [absent] at there
      cases there
    · rename_i c there
      obtain ⟨on, schema⟩ := sound c there
      rcases tried : Cursor.next (c, s) with ⟨reply, d, between⟩
      obtain ⟨still, same, steady, answers⟩ := on.next steady tried
      rw [tried] at run
      cases run
      rw [← schema] at answers
      refine ⟨⟨fun e here => ?_, steady, fun _ => ⟨rfl, rfl⟩⟩, fun _ => answers⟩
      cases here
      exact ⟨still, schema.trans (congrArg TableFile.schema same.symm)⟩
  rewind := by
    intro st now s after answer sound steady run
    rw [scan_rewind, onCursor_apply] at run
    split at run
    · cases run
      exact .refl sound steady
    · rename_i c there
      obtain ⟨on, schema⟩ := sound c there
      rcases tried : Cursor.rewind (c, s) with ⟨reply, d, between⟩
      obtain ⟨still, same, rfl⟩ := on.rewind tried
      rw [tried] at run
      cases run
      refine ⟨fun e here => ?_, steady, fun _ => ⟨rfl, rfl⟩⟩
      cases here
      exact ⟨still, schema.trans (congrArg TableFile.schema same.symm)⟩

/-! ## Given rows -/

def rowsPhases (schema : Schema) (given : List (List Value)) : Phases (List (List Value)) where
  sound left := ∀ row ∈ left, row ∈ given
  ready _ := ∀ row ∈ given, schema.check row = .ok ()

theorem typed_ofRows {schema : Schema} {given : List (List Value)} :
    Typed files (ofRows schema given) (rowsPhases schema given) where
  start := by
    intro st now s after answer sound steady run
    rcases ofRows_start_cases schema given st s with
      ⟨row, member, fault, refused, same⟩ | ⟨checked, same⟩
    · rw [same] at run
      cases run
      exact ⟨.refl sound steady, nofun⟩
    · rw [same] at run
      cases run
      exact ⟨.refl sound steady, fun _ => checked⟩
  next := by
    intro bound st now s after answer sound steady run
    rw [ofRows_next] at run
    split at run
    · cases run
      exact ⟨.refl sound steady, fun _ => nofun⟩
    · rename_i values rest
      cases run
      obtain ⟨first, others⟩ := List.forall_mem_cons.1 sound
      refine ⟨⟨others, steady, fun ready => ⟨ready, rfl⟩⟩, fun ready row same => ?_⟩
      cases same
      exact ready values first
  rewind := by
    intro st now s after answer sound steady run
    rw [ofRows_rewind] at run
    cases run
    exact ⟨fun row member => member, steady, fun ready => ⟨ready, rfl⟩⟩

/-! ## Filters -/

/-- Once the source is started, its child is. -/
def Phases.started (ph : Phases σ) : Phases (Started σ) where
  sound st := ph.sound st.child ∧ (st.ready → ph.ready st.child)
  ready st := st.ready

theorem Kept.started {st : Started σ} {c : σ} {after : Store}
    (kept : Kept files child ph st.child c after) (sound : ph.started.sound st) :
    ph.started.sound { st with child := c } :=
  ⟨kept.sound, fun ready => (kept.ready (sound.2 ready)).1⟩

theorem Kept.filter {st : Started σ} {c : σ} {after : Store} {predicate : Predicate}
    (kept : Kept files child ph st.child c after) (sound : ph.started.sound st) :
    Kept files (filter child predicate) ph.started st { st with child := c } after :=
  ⟨kept.started sound, kept.steady, fun ready => ⟨ready, (kept.ready (sound.2 ready)).2⟩⟩

theorem Typed.firstHolding (typed : Typed files child ph) {predicate : Predicate}
    {bound turns : Nat} {c now : σ} {s after : Store} {answer : Except Stop (Option Row)}
    (sound : ph.sound c) (ready : ph.ready c) (steady : s.Steady files)
    (run : Source.firstHolding (child.next bound) predicate turns (c, s) = (answer, now, after)) :
    Kept files child ph c now after ∧ AnswersIn (child.schema c).Admits answer := by
  induction turns generalizing c s with
  | zero =>
      cases run
      exact ⟨.refl sound steady, rfl⟩
  | succ turns ih =>
      rw [firstHolding_succ] at run
      rcases tried : child.next bound (c, s) with ⟨reply, d, between⟩
      obtain ⟨kept, admits⟩ := typed.next sound steady tried
      have admits := admits ready
      rw [tried] at run
      rcases reply with stop | _ | row
      · cases run
        exact ⟨kept, admits⟩
      · cases run
        exact ⟨kept, nofun⟩
      · simp only at run
        split at run
        · cases run
          exact ⟨kept, admits⟩
        · obtain ⟨still, same⟩ := kept.ready ready
          obtain ⟨last, answers⟩ := ih kept.sound still kept.steady run
          rw [same] at answers
          exact ⟨kept.trans last, answers⟩

theorem typed_filter (typed : Typed files child ph) (predicate : Predicate) :
    Typed files (filter child predicate) ph.started where
  start := by
    intro st now s after answer sound steady run
    rw [filter_start] at run
    split at run
    · rename_i ready
      cases run
      exact ⟨.refl sound steady, fun _ => ready⟩
    · rename_i fresh
      rcases began : child.start (st.child, s) with ⟨reply, c, between⟩
      obtain ⟨kept, ready⟩ := typed.start sound.1 steady began
      rw [began] at run
      cases reply with
      | error stop =>
          cases run
          exact ⟨kept.filter sound, nofun⟩
      | ok =>
          simp only at run
          split at run <;> cases run
          · exact ⟨kept.filter sound, nofun⟩
          · have begun := ready rfl
            exact ⟨⟨⟨kept.sound, fun _ => begun⟩, kept.steady, fun ready => absurd ready fresh⟩,
              fun _ => rfl⟩
  next := by
    intro bound st now s after answer sound steady run
    rw [filter_next] at run
    split at run
    · rename_i ready
      rcases searched : Source.firstHolding (child.next bound) predicate bound (st.child, s) with
        ⟨reply, c, between⟩
      obtain ⟨kept, answers⟩ := typed.firstHolding sound.1 (sound.2 ready) steady searched
      rw [searched] at run
      cases run
      exact ⟨kept.filter sound, fun _ => answers⟩
    · rename_i fresh
      cases run
      exact ⟨.refl sound steady, fun ready => absurd ready fresh⟩
  rewind := by
    intro st now s after answer sound steady run
    rw [filter_rewind] at run
    rcases rewound : child.rewind (st.child, s) with ⟨reply, c, between⟩
    have kept := typed.rewind sound.1 steady rewound
    rw [rewound] at run
    cases run
    exact kept.filter sound

/-! ## Changes -/

/-- Besides the child, the columns that it has are those that the change asks for. -/
def changePhases (child : Source σ) (ph : Phases σ) (Fits : Schema → Prop) :
    Phases (ChangeState σ) where
  sound st := ph.started.sound st.inner ∧
    (st.inner.ready → Fits (child.schema st.inner.child))
  ready st := st.inner.ready

section

variable {Fits : Schema → Prop} {prepare : Step σ Unit} {edit : Row → StoreAction Unit}

theorem Kept.change {st : ChangeState σ} {c : σ} {after : Store} {done : Bool}
    (kept : Kept files child ph st.inner.child c after)
    (sound : (changePhases child ph Fits).sound st) :
    Kept files (Source.change child prepare edit) (changePhases child ph Fits) st
      ⟨{ st.inner with child := c }, done⟩ after := by
  refine ⟨⟨kept.started sound.1, fun ready => ?_⟩, kept.steady, fun ready => ⟨ready, rfl⟩⟩
  have same := (kept.ready (sound.1.2 ready)).2
  show Fits (child.schema c)
  rw [same]
  exact sound.2 ready

/-- One turn of a change leaves the child alone. -/
theorem edited {row : Row} {count : Nat} {c now : σ} {s after : Store} {answer : Except Stop Nat}
    (steady : (edit row s).2.Steady files) (safe : StoreAction.TypeSafe s (edit row))
    (run : (do Step.onStore (edit row); return count + 1 : Step σ Nat) (c, s) =
      (answer, now, after)) :
    now = c ∧ after.Steady files ∧ AnswersIn (fun _ => True) answer := by
  rw [bind_apply, Step.onStore_apply] at run
  rcases done : edit row s with ⟨stop | _, between⟩
  all_goals
    rw [done] at run steady
    cases run
  · exact ⟨rfl, steady, safe stop (by rw [done])⟩
  · exact ⟨rfl, steady, trivial⟩

/-- A change that is prepared for columns that fit, and does not stop because of types on a
row of such columns. -/
theorem typed_change (typed : Typed files child ph)
    (prepares : ∀ {c now s after answer}, ph.sound c → s.Steady files →
      prepare (c, s) = (answer, now, after) → Kept files child ph c now after ∧
        (answer.isOk → ph.ready now ∧ Fits (child.schema now)))
    (safe : ∀ {schema row s}, Fits schema → s.Steady files → schema.check row.values = .ok () →
      (edit row s).2.Steady files ∧ StoreAction.TypeSafe s (edit row)) :
    Typed files (change child prepare edit) (changePhases child ph Fits) where
  start := by
    intro st now s after answer sound steady run
    rw [change_start] at run
    split at run
    · rename_i ready
      cases run
      exact ⟨.refl sound steady, fun _ => ready⟩
    · rename_i fresh
      rcases began : prepare (st.inner.child, s) with ⟨reply, c, between⟩
      obtain ⟨kept, ready⟩ := prepares sound.1.1 steady began
      rw [began] at run
      cases reply with
      | error stop =>
          cases run
          exact ⟨kept.change sound, nofun⟩
      | ok =>
          cases run
          obtain ⟨begun, fits⟩ := ready rfl
          exact ⟨⟨⟨⟨kept.sound, fun _ => begun⟩, fun _ => fits⟩, kept.steady,
            fun ready => absurd ready fresh⟩, fun _ => rfl⟩
  next := by
    intro bound st now s after answer sound steady run
    rw [change_next] at run
    split at run
    · rename_i ready
      split at run
      · cases run
        exact ⟨.refl sound steady, fun _ => nofun⟩
      rcases changed : changeAll child edit bound (st.inner.child, s) with ⟨reply, c, between⟩
      have fits := sound.2 ready
      have all : Kept files child ph st.inner.child c between ∧ AnswersIn (fun _ => True) reply := by
        refine typed.foldRows (fun _ checked steady folded => ?_) sound.1.1 (sound.1.2 ready) rfl
          steady trivial changed
        obtain ⟨still, safe⟩ := safe fits steady checked
        exact edited still safe folded
      obtain ⟨kept, answers⟩ := all
      rw [changed] at run
      cases reply with
      | error stop =>
          cases run
          exact ⟨kept.change sound, fun _ => answers⟩
      | ok count =>
          cases run
          refine ⟨kept.change sound, fun _ row same => ?_⟩
          cases same
          rfl
    · rename_i fresh
      cases run
      exact ⟨.refl sound steady, fun ready => absurd ready fresh⟩
  rewind := by
    intro st now s after answer sound steady run
    rw [change_rewind] at run
    rcases rewound : child.rewind (st.inner.child, s) with ⟨reply, c, between⟩
    have kept := typed.rewind sound.1.1 steady rewound
    rw [rewound] at run
    cases reply <;> cases run <;> exact kept.change sound

end

/-- The columns have the types of the table's. -/
def FitTable (files : TableId → Option TableFile) (table : TableId) (schema : Schema) : Prop :=
  ∃ file, files table = some file ∧ schema.types = file.schema.types

theorem typed_insert (typed : Typed files child ph) (txn : TxnId) (table : TableId) :
    Typed files (insert txn table child) (changePhases child ph (FitTable files table)) := by
  refine typed_change typed ?_ ?_
  · intro c now s after answer sound steady run
    rw [bind_apply] at run
    rcases began : child.start (c, s) with ⟨reply, d, between⟩
    obtain ⟨kept, ready⟩ := typed.start sound steady began
    rw [began] at run
    cases reply with
    | error stop =>
        cases run
        exact ⟨kept, fun done => by cases done⟩
    | ok =>
        have listed := kept.steady.fits table
        simp only [bind_apply, Step.onStore_apply, StoreAction.tableFile,
          StoreAction.query_apply] at run
        cases registered : between.catalog.file table with
        | error fault =>
            rw [registered] at run
            cases run
            exact ⟨kept, fun done => by cases done⟩
        | ok file =>
            simp only [registered, Except.mapError, Step.own_apply] at run
            split at run
            · cases run
              exact ⟨kept, fun done => by cases done⟩
            · rename_i same
              cases run
              exact ⟨kept, fun _ => ⟨ready rfl, file, listed file registered, not_not.1 same⟩⟩
  · intro schema row s fits steady checked
    obtain ⟨file, listed, types⟩ := fits
    have fitting : file.schema.check row.values = .ok () := by
      rw [Schema.check_eq_ok_iff, ← types, ← Schema.check_eq_ok_iff]
      exact checked
    have safe : StoreAction.TypeSafe s (StoreAction.insertRow txn table row.values) :=
      StoreAction.typeSafe_insertRow listed fitting steady
    have still := steady.insertRow txn table row.values
    refine ⟨?_, safe.bind fun _ _ _ => StoreAction.typeSafe_of_ok rfl⟩
    rw [bind_apply]
    rcases done : StoreAction.insertRow txn table row.values s with ⟨_ | _, after⟩
    all_goals
      rw [done] at still
      exact still

theorem typed_delete (typed : Typed files child ph) (txn : TxnId) :
    Typed files (delete txn child) (changePhases child ph fun _ => True) := by
  refine typed_change typed ?_ ?_
  · intro c now s after answer sound steady run
    obtain ⟨kept, ready⟩ := typed.start sound steady run
    exact ⟨kept, fun done => ⟨ready done, trivial⟩⟩
  · intro schema row s _ steady _
    exact ⟨steady.deleteRow txn row, StoreAction.typeSafe_deleteRow steady row⟩

/-! ## Aggregates -/

/-- Once the source is started, the results are rows of its columns, which are those that the
aggregation makes of the child's. -/
def groupingPhases (child : Source σ) (ph : Phases σ) (a : Aggregation) :
    Phases (GroupingState σ) where
  sound st := ph.started.sound st.inner ∧
    (st.inner.ready → a.outputSchema (child.schema st.inner.child) = .ok st.schema) ∧
    ∀ rows, st.results? = some rows → st.inner.ready ∧
      ∀ row ∈ rows, st.schema.check row.values = .ok ()
  ready st := st.inner.ready

section

variable {a : Aggregation}

theorem Kept.grouping {st : GroupingState σ} {c : σ} {after : Store}
    (kept : Kept files child ph st.inner.child c after)
    (sound : (groupingPhases child ph a).sound st) {results? : Option (List Row)}
    (checked : ∀ rows, results? = some rows → st.inner.ready ∧
      ∀ row ∈ rows, st.schema.check row.values = .ok ()) :
    Kept files (aggregate child a) (groupingPhases child ph a) st
      { st with inner.child := c, results? } after := by
  obtain ⟨inner, columns, -⟩ := sound
  refine ⟨⟨kept.started inner, fun ready => ?_, checked⟩, kept.steady, fun ready => ⟨ready, rfl⟩⟩
  have same := (kept.ready (inner.2 ready)).2
  show a.outputSchema (child.schema c) = .ok st.schema
  rw [same]
  exact columns ready

theorem Typed.compute (typed : Typed files child ph) {schema : Schema} {c now : σ}
    {s after : Store} {answer : Except Stop (List Row)} {bound : Nat} (sound : ph.sound c)
    (ready : ph.ready c) (known : a.outputSchema (child.schema c) = .ok schema)
    (steady : s.Steady files) (run : Source.compute child a bound (c, s) = (answer, now, after)) :
    Kept files child ph c now after ∧
      AnswersIn (fun rows => ∀ row ∈ rows, schema.check row.values = .ok ()) answer := by
  rw [compute_apply] at run
  rcases grouped : Step.foldRows (child.next bound)
    (fun groups row => MonadExcept.ofExcept (a.addRow groups row)) bound ∅ (c, s) with
    ⟨reply, d, between⟩
  obtain ⟨kept, answers⟩ : Kept files child ph c d between ∧
      AnswersIn (a.KeysFit (child.schema c)) reply := by
    refine typed.foldRows (fun fits checked steady folded => ?_) sound ready rfl steady
      Aggregation.keysFit_empty grouped
    obtain ⟨more, added, still⟩ := Aggregation.addRow_fits known fits checked
    rw [added, Step.except_apply] at folded
    cases folded
    exact ⟨rfl, steady, still⟩
  rw [grouped] at run
  cases reply with
  | error stop =>
      cases run
      exact ⟨kept, answers⟩
  | ok groups =>
      cases run
      exact ⟨kept, Aggregation.results_fits known answers⟩

theorem Typed.pending (typed : Typed files child ph) {schema : Schema} {c now : σ}
    {s after : Store} {answer : Except Stop (List Row)} {results? : Option (List Row)} {bound : Nat}
    (sound : ph.sound c) (ready : ph.ready c) (known : a.outputSchema (child.schema c) = .ok schema)
    (checked : ∀ rows, results? = some rows → ∀ row ∈ rows, schema.check row.values = .ok ())
    (steady : s.Steady files)
    (run : Source.pending child a bound results? (c, s) = (answer, now, after)) :
    Kept files child ph c now after ∧
      AnswersIn (fun rows => ∀ row ∈ rows, schema.check row.values = .ok ()) answer := by
  cases results? with
  | some rows =>
      cases run
      exact ⟨.refl sound steady, checked rows rfl⟩
  | none => exact typed.compute sound ready known steady run

theorem typed_aggregate (typed : Typed files child ph) (a : Aggregation) :
    Typed files (aggregate child a) (groupingPhases child ph a) where
  start := by
    intro st now s after answer sound steady run
    rw [aggregate_start] at run
    split at run
    · rename_i ready
      cases run
      exact ⟨.refl sound steady, fun _ => ready⟩
    · rename_i fresh
      rcases began : child.start (st.inner.child, s) with ⟨reply, c, between⟩
      obtain ⟨kept, ready⟩ := typed.start sound.1.1 steady began
      rw [began] at run
      cases reply with
      | error stop =>
          cases run
          exact ⟨kept.grouping sound sound.2.2, nofun⟩
      | ok =>
          simp only at run
          split at run
          · cases run
            exact ⟨kept.grouping sound sound.2.2, nofun⟩
          · rename_i schema known
            cases run
            have begun := ready rfl
            refine ⟨⟨⟨⟨kept.sound, fun _ => begun⟩, fun _ => known, fun rows there => ?_⟩,
              kept.steady, fun ready => absurd ready fresh⟩, fun _ => rfl⟩
            exact absurd (sound.2.2 rows there).1 fresh
  next := by
    intro bound st now s after answer sound steady run
    rw [aggregate_next] at run
    split at run
    · rename_i ready
      rcases worked : pending child a bound st.results? (st.inner.child, s) with ⟨reply, c, between⟩
      obtain ⟨kept, answers⟩ := typed.pending sound.1.1 (sound.1.2 ready) (sound.2.1 ready)
        (fun rows there => (sound.2.2 rows there).2) steady worked
      rw [worked] at run
      cases reply with
      | error stop =>
          cases run
          exact ⟨kept.grouping sound sound.2.2, fun _ => answers⟩
      | ok rows =>
          cases run
          refine ⟨kept.grouping sound fun left same => ⟨ready, fun row member => ?_⟩,
            fun _ row same => answers row (List.mem_of_mem_head? same)⟩
          cases same
          exact answers row (List.mem_of_mem_tail member)
    · rename_i fresh
      cases run
      exact ⟨.refl sound steady, fun ready => absurd ready fresh⟩
  rewind := by
    intro st now s after answer sound steady run
    rw [aggregate_rewind] at run
    rcases rewound : child.rewind (st.inner.child, s) with ⟨reply, c, between⟩
    have kept := typed.rewind sound.1.1 steady rewound
    rw [rewound] at run
    cases reply with
    | error stop =>
        cases run
        exact kept.grouping sound sound.2.2
    | ok =>
        cases run
        exact kept.grouping sound nofun

end

end Source

/-! ## Plans -/

namespace Plan

variable {files : TableId → Option TableFile}

def phases (files : TableId → Option TableFile) (txn : TxnId) : (p : Plan) → Source.Phases p.State
  | .scan table => Source.scanPhases files table
  | .rows schema given => Source.rowsPhases schema given
  | .filter child _ => (child.phases files txn).started
  | .insert table child =>
      Source.changePhases (child.source txn) (child.phases files txn) (Source.FitTable files table)
  | .delete child =>
      Source.changePhases (child.source txn) (child.phases files txn) fun _ => True
  | .aggregate child a => Source.groupingPhases (child.source txn) (child.phases files txn) a

/-- **Every tree of operators** goes through its phases. -/
theorem typed (txn : TxnId) (p : Plan) :
    Source.Typed files (p.source txn) (p.phases files txn) := by
  induction p with
  | scan table => exact Source.typed_scan
  | rows schema given => exact Source.typed_ofRows
  | filter child predicate ih => exact Source.typed_filter ih predicate
  | insert table child ih => exact Source.typed_insert ih txn table
  | delete child ih => exact Source.typed_delete ih txn
  | aggregate child a ih => exact Source.typed_aggregate ih a

theorem sound_initial (txn : TxnId) (p : Plan) : (p.phases files txn).sound p.initial := by
  induction p with
  | scan table => exact nofun
  | rows schema given => exact fun row member => member
  | filter child predicate ih => exact ⟨ih, nofun⟩
  | insert table child ih => exact ⟨⟨ih, nofun⟩, nofun⟩
  | delete child ih => exact ⟨⟨ih, nofun⟩, nofun⟩
  | aggregate child a ih => exact ⟨⟨ih, nofun⟩, nofun, nofun⟩

end Plan

end RowStore
