/-
# RowStore.Proofs.Query.Bounds -- a plan that only reads comes to an end

The loops of a plan take rows from a child until there are none, and give up after a number
of rows that is computed from the store (`Plan.rowBound`).  While nothing of the tables
changes they never get there.  A scan has at most `slotLimit` rows for every page that it has
yet to fetch, and neither a filter nor an aggregate makes rows more (`Plan.within`).  Each row
that is taken is one less (`Source.Lasts`), and all there can be at the front are less than
the bound (`Plan.most_lt_rowBound`).

So a plan that only reads is never exhausted (`Running.never_exhausted`).  Nothing is said here
of plans that write, where a scan may meet the rows that its own plan inserts.
-/
import RowStore.Proofs.Query.Forecast
import RowStore.Proofs.Query.Runs
import RowStore.Proofs.Store.Uniform

namespace RowStore

set_option autoImplicit false

open RowStore.Action

/-! ## Actions without loops -/

namespace Action

variable {σ α β : Type}

/-- The action does not give up for want of steps. -/
def Conclusive (action : Action σ α) : Prop := ∀ s, (action s).1 ≠ .error .exhausted

theorem conclusive_pure (a : α) : Conclusive (pure a : Action σ α) := fun _ => nofun

theorem conclusive_fail (cause : Fault) : Conclusive (fail cause : Action σ α) := fun _ => nofun

theorem conclusive_ofExcept (r : Except Fault α) : Conclusive (ofExcept r : Action σ α) := by
  cases r with
  | ok a => exact conclusive_pure a
  | error cause => exact conclusive_fail cause

theorem Conclusive.bind {first : Action σ α} {next : α → Action σ β} (one : first.Conclusive)
    (other : ∀ a, (next a).Conclusive) : (first >>= next).Conclusive := by
  intro s
  rw [bind_apply]
  rcases run : first s with ⟨stop | a, mid⟩
  · have ends := one s
    rw [run] at ends
    simpa using ends
  · exact other a mid

end Action

namespace StoreAction

theorem conclusive_acquire (txn : TxnId) (request : LockRequest) :
    (acquire txn request).Conclusive := by
  intro s
  unfold acquire
  simp only [bind_apply, get_apply, set_apply]
  rcases s.locks.request txn request with ⟨_ | _ | _, locks⟩ <;> exact nofun

theorem conclusive_fetch (id : PageId) : (fetch id).Conclusive := by
  refine Conclusive.bind (fun s => ?_) fun found => ?_
  · rw [lookup_apply]
    exact nofun
  · cases found with
    | some frame => exact conclusive_pure frame
    | none =>
        refine Conclusive.bind (fun s => conclusive_ofExcept _ s) fun file => ?_
        refine Conclusive.bind (fun s => conclusive_ofExcept _ s) fun page => ?_
        refine Conclusive.bind (fun _ => nofun) fun s => ?_
        exact Conclusive.bind (conclusive_ofExcept _) fun _ _ => nofun

theorem conclusive_readPage (txn : TxnId) (id : PageId) (mode : LockMode) :
    (readPage txn id mode).Conclusive :=
  (conclusive_acquire txn _).bind fun _ => conclusive_fetch id

end StoreAction

/-! ## Cursors -/

/-- What an answer leaves of so many rows: a row that is answered is one less. -/
def Spends (Later : Nat → Prop) : Except Stop (Option Row) → Nat → Prop
  | .ok (some _), n => ∃ left < n, Later left
  | .ok none, n => Later n
  | .error stop, n => stop ≠ .exhausted ∧ Later n

theorem Spends.imp {P Q : Nat → Prop} (implies : ∀ m, P m → Q m) {answer : Except Stop (Option Row)}
    {n : Nat} (spends : Spends P answer n) : Spends Q answer n := by
  rcases answer with stop | _ | row
  · exact ⟨spends.1, implies n spends.2⟩
  · exact implies n spends
  · obtain ⟨left, fewer, later⟩ := spends
    exact ⟨left, fewer, implies left later⟩

theorem Spends.mono {P : Nat → Prop} (grows : ∀ {m n}, m ≤ n → P m → P n)
    {answer : Except Stop (Option Row)} {m n : Nat} (more : m ≤ n) (spends : Spends P answer m) :
    Spends P answer n := by
  rcases answer with stop | _ | row
  · exact ⟨spends.1, grows more spends.2⟩
  · exact grows more spends
  · obtain ⟨left, fewer, later⟩ := spends
    exact ⟨left, fewer.trans_le more, later⟩

variable {files : TableId → Option TableFile}

namespace Cursor

variable {table : TableId} {c now : Cursor} {s after : Store} {n bound : Nat}

/-- The cursor has no more rows to answer than so many. -/
structure Within (files : TableId → Option TableFile) (table : TableId) (c : Cursor) (s : Store)
    (n : Nat) : Prop where
  on : c.OpenOn files table s
  few : c.ready.length + slotLimit * (s.pageCount c.file - c.nextPage) ≤ n

theorem Within.still (within : c.Within files table s n) (still : s.Still files after) :
    c.Within files table after n := by
  refine ⟨(within.on.still still).1, ?_⟩
  rw [still.pageCount]
  exact within.few

theorem Within.took {row : Row} {rest : List Row}
    (within : Within files table { c with ready := row :: rest } s n) :
    ∃ left < n, Within files table { c with ready := rest } s left := by
  obtain ⟨⟨isOpen, own, listed, known⟩, few⟩ := within
  have less : rest.length + slotLimit * (s.pageCount c.file - c.nextPage) < n := by
    rw [List.length_cons, Nat.add_right_comm] at few
    exact few
  exact ⟨_, less, ⟨isOpen, own, listed, known⟩, Nat.le_refl _⟩

/-- A page that is passed takes its slots off. -/
theorem Within.passed (within : c.Within files table s n) (none : c.ready = [])
    (inside : c.nextPage < s.pageCount c.file) {front : List Row} (few : front.length ≤ slotLimit) :
    Within files table { c.passed (c.reckoned s) with ready := front } s n := by
  obtain ⟨on, total⟩ := within
  have taken : s.pageCount c.file - c.nextPage = s.pageCount c.file - (c.nextPage + 1) + 1 := by
    omega
  rw [none, taken, Nat.mul_add_one] at total
  refine ⟨⟨on.isOpen, on.own, on.listed, on.reckoned_le⟩, ?_⟩
  show front.length + slotLimit * (s.pageCount c.file - (c.nextPage + 1)) ≤ n
  rw [List.length_nil] at total
  omega

/-- The pages are fewer than the turns, so the loop over them ends. -/
theorem Within.advance (within : c.Within files table s n) (uniform : s.Uniform files)
    (none : c.ready = []) (enough : s.pageCount c.file - c.nextPage < bound)
    {answer : Except Stop (Option Row)} (run : Cursor.advance bound (c, s) = (answer, now, after)) :
    s.Still files after ∧ Spends (now.Within files table after) answer n := by
  induction bound generalizing c s with
  | zero => cases enough
  | succ bound ih =>
      have on := within.on
      have listed : files c.file.id = some c.file := by rw [on.own, on.listed]
      have skipped : c.nextPage < s.pageCount c.file →
          (c.passed (c.reckoned s)).Within files table s n := by
        intro inside
        have empty : ([] : List Row).length ≤ slotLimit := Nat.zero_le _
        have passed := within.passed none inside empty
        rw [← none] at passed
        exact passed
      rcases on.turn_cases uniform.toFaithful run with ⟨-, rfl, rfl, rfl⟩ | ⟨inside,
        ⟨stop, rfl, rfl, still, cause⟩ | ⟨mid, front, still, rows, ⟨rfl, onward⟩ |
          ⟨row, rest, rfl, rfl, rfl, rfl⟩⟩⟩
      · exact ⟨.refl uniform.toFaithful, ⟨on.isOpen, on.own, on.listed, on.reckoned_le⟩, within.few⟩
      · refine ⟨still, ?_, (skipped inside).still still⟩
        rintro rfl
        rcases cause with ⟨fault, same⟩ | stopped
        · cases same
        · exact StoreAction.conclusive_readPage _ _ _ s stopped
      · have fewer : mid.pageCount c.file - (c.nextPage + 1) < bound := by
          rw [still.pageCount]
          omega
        obtain ⟨later, spends⟩ :=
          ih ((skipped inside).still still) (still.uniform uniform) none fewer onward
        exact ⟨still.trans later, spends⟩
      · have few := uniform.length_rowsAt listed rows
        exact ⟨still, ((within.passed none inside few).still still).took⟩

theorem Within.next (within : c.Within files table s n) (uniform : s.Uniform files)
    {answer : Except Stop (Option Row)} (run : Cursor.next (c, s) = (answer, now, after)) :
    s.Still files after ∧ Spends (now.Within files table after) answer n := by
  rw [next_apply, if_neg (by simp [within.on.isOpen])] at run
  split at run
  · rename_i row rest ready
    cases run
    have whole : Within files table { c with ready := row :: rest } s n := by
      rw [← ready]
      exact within
    exact ⟨.refl uniform.toFaithful, whole.took⟩
  · rename_i none
    exact within.advance uniform none (by omega) run

/-- A cursor before the first page. -/
theorem OpenOn.within_front (on : c.OpenOn files table s) (front : c.nextPage = 0)
    (none : c.ready = []) : c.Within files table s (slotLimit * s.pageCount c.file) := by
  refine ⟨on, ?_⟩
  rw [none, front, List.length_nil, Nat.zero_add, Nat.sub_zero]

end Cursor

/-! ## Sources -/

namespace Source

variable {σ β : Type} {child : Source σ} {within : Store → σ → Nat → Prop} {most : Store → Nat}
  {txn : TxnId} {table : TableId}

/-- What a rewind leaves of so many rows: all there can be, if it does not fail. -/
def Restores (Later : Nat → Prop) (most : Nat) : Except Stop Unit → Nat → Prop
  | .ok (), _ => Later most
  | .error stop, n => stop ≠ .exhausted ∧ Later n

/-- The source has at most so many rows to answer, and `most` when it is at its front again.
It does not run out of steps as long as they are less than the bound. -/
structure Lasts {σ : Type} (files : TableId → Option TableFile) (source : Source σ)
    (most : Store → Nat) (within : Store → σ → Nat → Prop) : Prop where
  mono : ∀ {s st m n}, m ≤ n → within s st m → within s st n
  still : ∀ {s after st n}, s.Still files after → within s st n → within after st n
  start : ∀ {st now s after n answer}, s.Uniform files → within s st n → most s ≤ n →
    source.start (st, s) = (answer, now, after) →
      s.Still files after ∧ answer ≠ .error .exhausted ∧ within after now n
  next : ∀ {bound st now s after n answer}, s.Uniform files → within s st n → n < bound →
    source.next bound (st, s) = (answer, now, after) →
      s.Still files after ∧ Spends (within after now) answer n
  rewind : ∀ {st now s after n answer}, s.Uniform files → within s st n →
    source.rewind (st, s) = (answer, now, after) →
      s.Still files after ∧ Restores (within after now) (most s) answer n

/-! ### Scans and given rows -/

def scanWithin (files : TableId → Option TableFile) (table : TableId) (s : Store) (st : ScanState)
    (n : Nat) : Prop :=
  ∀ c, st.cursor? = some c → c.Within files table s n

/-- The rows of a table, if every slot is used. -/
def scanMost (files : TableId → Option TableFile) (table : TableId) (s : Store) : Nat :=
  ((files table).map fun file => slotLimit * s.pageCount file).getD 0

theorem scanWithin_front {c : Cursor} {schema : Schema} {s : Store} {n : Nat}
    (on : c.OpenOn files table s) (front : c.nextPage = 0) (none : c.ready = [])
    (enough : scanMost files table s ≤ n) : scanWithin files table s ⟨some c, schema⟩ n := by
  rintro d ⟨⟩
  rw [scanMost, on.listed, Option.map_some, Option.getD_some] at enough
  exact ⟨on, (on.within_front front none).few.trans enough⟩

theorem lasts_scan : Lasts files (scan txn table) (scanMost files table) (scanWithin files table) where
  mono := by
    intro s st m n more within c there
    exact ⟨(within c there).on, (within c there).few.trans more⟩
  still := by
    intro s after st n still within c there
    exact (within c there).still still
  start := by
    intro st now s after n answer uniform within enough run
    rw [scan_start] at run
    split at run
    · cases run
      exact ⟨.refl uniform.toFaithful, nofun, within⟩
    · split at run
      · cases run
        exact ⟨.refl uniform.toFaithful, nofun, within⟩
      · rename_i file registered
        have own := (uniform.tables table file registered).1
        have listed := uniform.fits table file registered
        cases run
        exact ⟨.refl uniform.toFaithful, nofun,
          scanWithin_front ⟨rfl, own, listed, Nat.le_refl _⟩ rfl rfl enough⟩
  next := by
    intro bound st now s after n answer uniform within small run
    rw [scan_next, onCursor_apply] at run
    cases there : st.cursor? with
    | none =>
        rw [there] at run
        cases run
        exact ⟨.refl uniform.toFaithful, nofun, within⟩
    | some c =>
        rw [there] at run
        rcases tried : Cursor.next (c, s) with ⟨reply, d, between⟩
        simp only [tried] at run
        cases run
        obtain ⟨still, spends⟩ := (within c there).next uniform tried
        refine ⟨still, spends.imp ?_⟩
        rintro m within e ⟨⟩
        exact within
  rewind := by
    intro st now s after n answer uniform within run
    rw [scan_rewind, onCursor_apply] at run
    split at run
    · cases run
      exact ⟨.refl uniform.toFaithful, nofun, within⟩
    · rename_i c there
      have on := (within c there).on
      rw [Cursor.rewind_apply, if_neg (by simp [on.isOpen])] at run
      cases run
      exact ⟨.refl uniform.toFaithful,
        scanWithin_front ⟨rfl, on.own, on.listed, Nat.le_refl _⟩ rfl rfl (Nat.le_refl _)⟩

def rowsWithin (_ : Store) (left : List (List Value)) (n : Nat) : Prop := left.length ≤ n

theorem lasts_ofRows (schema : Schema) (given : List (List Value)) :
    Lasts files (ofRows schema given) (fun _ => given.length) rowsWithin where
  mono := fun more within => within.trans more
  still := fun _ within => within
  start := by
    intro left now s after n answer uniform within enough run
    rcases ofRows_start_cases schema given left s with
      ⟨row, member, fault, refused, stopped⟩ | ⟨checked, done⟩
    · rw [stopped] at run
      cases run
      exact ⟨.refl uniform.toFaithful, nofun, within⟩
    · rw [done] at run
      cases run
      exact ⟨.refl uniform.toFaithful, nofun, within⟩
  next := by
    intro bound left now s after n answer uniform within small run
    rw [ofRows_next] at run
    cases left with
    | nil =>
        cases run
        exact ⟨.refl uniform.toFaithful, within⟩
    | cons values rest =>
        cases run
        exact ⟨.refl uniform.toFaithful, now.length, within, Nat.le_refl _⟩
  rewind := by
    intro left now s after n answer uniform within run
    rw [ofRows_rewind] at run
    cases run
    exact ⟨.refl uniform.toFaithful, Nat.le_refl given.length⟩

/-! ### Filters -/

def filterWithin (within : Store → σ → Nat → Prop) (s : Store) (st : Started σ) (n : Nat) : Prop :=
  within s st.child n

theorem Lasts.firstHolding (lasts : Lasts files child most within) {predicate : Predicate}
    {bound turns n : Nat} {c now : σ} {s after : Store} {answer : Except Stop (Option Row)}
    (uniform : s.Uniform files) (before : within s c n) (small : n < bound) (enough : n < turns)
    (run : Source.firstHolding (child.next bound) predicate turns (c, s) = (answer, now, after)) :
    s.Still files after ∧ Spends (within after now) answer n := by
  induction turns generalizing c s n with
  | zero => cases enough
  | succ turns ih =>
      rw [firstHolding_succ] at run
      rcases tried : child.next bound (c, s) with ⟨reply, d, between⟩
      rw [tried] at run
      obtain ⟨still, spends⟩ := lasts.next uniform before small tried
      rcases reply with stop | _ | row
      · cases run
        exact ⟨still, spends⟩
      · cases run
        exact ⟨still, spends⟩
      · obtain ⟨left, fewer, later⟩ := spends
        simp only at run
        split at run
        · cases run
          exact ⟨still, left, fewer, later⟩
        · obtain ⟨more, last⟩ := ih (still.uniform uniform) later (by omega) (by omega) run
          exact ⟨still.trans more, last.mono lasts.mono fewer.le⟩

theorem lasts_filter (lasts : Lasts files child most within) (predicate : Predicate) :
    Lasts files (filter child predicate) most (filterWithin within) where
  mono := fun more => lasts.mono more
  still := fun still => lasts.still still
  start := by
    intro st now s after n answer uniform before enough run
    rw [filter_start] at run
    split at run
    · cases run
      exact ⟨.refl uniform.toFaithful, nofun, before⟩
    · rcases began : child.start (st.child, s) with ⟨reply, c, between⟩
      obtain ⟨still, conclusive, later⟩ := lasts.start uniform before enough began
      rw [began] at run
      cases reply with
      | error stop =>
          cases run
          exact ⟨still, by simpa using conclusive, later⟩
      | ok =>
          simp only at run
          split at run <;> cases run <;> exact ⟨still, nofun, later⟩
  next := by
    intro bound st now s after n answer uniform before small run
    rw [filter_next] at run
    split at run
    · rcases searched : Source.firstHolding (child.next bound) predicate bound (st.child, s) with
        ⟨reply, c, between⟩
      rw [searched] at run
      cases run
      exact lasts.firstHolding uniform before small small searched
    · cases run
      exact ⟨.refl uniform.toFaithful, nofun, before⟩
  rewind := by
    intro st now s after n answer uniform before run
    rw [filter_rewind] at run
    rcases rewound : child.rewind (st.child, s) with ⟨reply, c, between⟩
    rw [rewound] at run
    cases run
    exact lasts.rewind uniform before rewound

/-! ### Aggregates -/

/-- The results that are there are so many, or else the rows of the child are. -/
structure GroupingWithin (within : Store → σ → Nat → Prop) (s : Store) (st : GroupingState σ)
    (n : Nat) : Prop where
  results : ∀ left, st.results? = some left → left.length ≤ n
  child : st.results? = none → within s st.inner.child n
  bounded : ∃ m, within s st.inner.child m

theorem outputSchema_conclusive (a : Aggregation) (schema : Schema) :
    a.outputSchema schema ≠ .error .exhausted := by
  intro stopped
  unfold Aggregation.outputSchema at stopped
  repeat' split at stopped
  all_goals cases stopped

/-- The loop over all rows ends, and adds no more than one for each. -/
theorem Lasts.foldRows (lasts : Lasts files child most within) (fold : β → Row → Except Stop β)
    (size : β → Nat)
    (adds : ∀ acc row result, fold acc row = .ok result → size result ≤ size acc + 1)
    (conclusive : ∀ acc row, fold acc row ≠ .error .exhausted)
    {bound turns n : Nat} {acc : β} {c now : σ} {s after : Store} {answer : Except Stop β}
    (uniform : s.Uniform files) (before : within s c n) (small : n < bound) (enough : n < turns)
    (run : Step.foldRows (child.next bound) (fun acc row => MonadExcept.ofExcept (fold acc row))
      turns acc (c, s) = (answer, now, after)) :
    s.Still files after ∧ within after now n ∧ answer ≠ .error .exhausted ∧
      ∀ result, answer = .ok result → size result ≤ size acc + n := by
  induction turns generalizing c s n acc with
  | zero => cases enough
  | succ turns ih =>
      rw [Step.foldRows_succ] at run
      rcases tried : child.next bound (c, s) with ⟨reply, d, between⟩
      rw [tried] at run
      obtain ⟨still, spends⟩ := lasts.next uniform before small tried
      rcases reply with stop | _ | row
      · cases run
        exact ⟨still, spends.2, by simpa using spends.1, nofun⟩
      · cases run
        refine ⟨still, spends, nofun, ?_⟩
        rintro result ⟨⟩
        exact Nat.le_add_right _ _
      · obtain ⟨left, fewer, later⟩ := spends
        simp only [Step.except_apply] at run
        cases folded : fold acc row with
        | error stop =>
            rw [folded] at run
            cases run
            exact ⟨still, lasts.mono fewer.le later, folded ▸ conclusive acc row, nofun⟩
        | ok more =>
            rw [folded] at run
            obtain ⟨further, last, ends, sizes⟩ :=
              ih (still.uniform uniform) later (by omega) (by omega) run
            refine ⟨still.trans further, lasts.mono fewer.le last, ends, fun result same => ?_⟩
            have one := adds acc row more folded
            have all := sizes result same
            omega

theorem Lasts.compute (lasts : Lasts files child most within) {a : Aggregation} {bound n : Nat}
    {c now : σ} {s after : Store} {answer : Except Stop (List Row)} (uniform : s.Uniform files)
    (before : within s c n) (small : n < bound)
    (run : Source.compute child a bound (c, s) = (answer, now, after)) :
    s.Still files after ∧ within after now n ∧ answer ≠ .error .exhausted ∧
      ∀ rows, answer = .ok rows → rows.length ≤ n := by
  have adds : ∀ groups row more, a.addRow groups row = .ok more → more.size ≤ groups.size + 1 := by
    intro groups row more done
    unfold Aggregation.addRow at done
    repeat' split at done
    all_goals cases done
    exact groups.size_insert_le _ _
  have conclusive : ∀ groups row, a.addRow groups row ≠ .error .exhausted := by
    intro groups row stopped
    unfold Aggregation.addRow at stopped
    split at stopped
    · rename_i stop failed
      cases stopped
      unfold Aggregation.keyOf at failed
      repeat' split at failed
      all_goals cases failed
    · split at stopped <;> cases stopped
  rw [compute_apply] at run
  rcases grouped : Step.foldRows (child.next bound)
    (fun groups row => MonadExcept.ofExcept (a.addRow groups row)) bound ∅ (c, s) with
    ⟨reply, d, between⟩
  rw [grouped] at run
  obtain ⟨still, later, ends, sizes⟩ :=
    lasts.foldRows a.addRow FinMap.size adds conclusive uniform before small small grouped
  cases reply with
  | error stop =>
      cases run
      exact ⟨still, later, by simpa using ends, nofun⟩
  | ok groups =>
      have few := sizes groups rfl
      cases run
      refine ⟨still, later, ?_, fun rows listed => ?_⟩
      · cases a.results groups <;> exact nofun
      · cases worked : a.results groups with
        | error fault =>
            rw [worked] at listed
            cases listed
        | ok results =>
            rw [worked] at listed
            cases listed
            rw [length_of_mapM worked]
            exact few.trans (Nat.zero_add n).le

/-- The results that are there or are computed are so many at most. -/
theorem Lasts.pending (lasts : Lasts files child most within) {a : Aggregation}
    {results? : Option (List Row)} {bound m n : Nat} {c now : σ} {s after : Store}
    {answer : Except Stop (List Row)} (uniform : s.Uniform files)
    (few : ∀ left, results? = some left → left.length ≤ n)
    (before : results? = none → within s c n) (bounded : within s c m) (small : n < bound)
    (run : Source.pending child a bound results? (c, s) = (answer, now, after)) :
    s.Still files after ∧ answer ≠ .error .exhausted ∧
      (∀ rows, answer = .ok rows → rows.length ≤ n) ∧
        (results? = none → within after now n) ∧ ∃ m, within after now m := by
  cases results? with
  | some left =>
      cases run
      refine ⟨.refl uniform.toFaithful, nofun, ?_, nofun, m, bounded⟩
      rintro rows ⟨⟩
      exact few left rfl
  | none =>
      obtain ⟨still, later, ends, listed⟩ := lasts.compute uniform (before rfl) small run
      exact ⟨still, ends, listed, fun _ => later, n, later⟩

theorem lasts_aggregate (lasts : Lasts files child most within) (a : Aggregation) :
    Lasts files (aggregate child a) most (GroupingWithin within) where
  mono := fun more before =>
    ⟨fun left there => (before.results left there).trans more,
      fun none => lasts.mono more (before.child none), before.bounded⟩
  still := by
    rintro s after st n still ⟨results, before, m, bounded⟩
    exact ⟨results, fun none => lasts.still still (before none), m, lasts.still still bounded⟩
  start := by
    rintro st now s after n answer uniform ⟨results, before, m, bounded⟩ enough run
    rw [aggregate_start] at run
    split at run
    · cases run
      exact ⟨.refl uniform.toFaithful, nofun, results, before, m, bounded⟩
    rcases began : child.start (st.inner.child, s) with ⟨reply, c, between⟩
    obtain ⟨still, conclusive, later⟩ := lasts.start uniform
      (lasts.mono (Nat.le_max_left m n) bounded) (enough.trans (Nat.le_max_right m n)) began
    have started : st.results? = none → within between c n := fun none =>
      (lasts.start uniform (before none) enough began).2.2
    rw [began] at run
    cases reply with
    | error stop =>
        cases run
        exact ⟨still, by simpa using conclusive, results, started, _, later⟩
    | ok =>
        simp only at run
        split at run
        · rename_i stop refused
          cases run
          refine ⟨still, ?_, results, started, _, later⟩
          rintro ⟨⟩
          exact outputSchema_conclusive a _ refused
        · cases run
          exact ⟨still, nofun, results, started, _, later⟩
  next := by
    rintro bound st now s after n answer uniform ⟨results, before, m, bounded⟩ small run
    rw [aggregate_next] at run
    split at run
    · rcases worked : pending child a bound st.results? (st.inner.child, s) with
        ⟨reply, c, between⟩
      rw [worked] at run
      obtain ⟨still, ends, few, drained, some⟩ :=
        lasts.pending uniform results before bounded small worked
      rcases reply with stop | _ | ⟨row, rest⟩
      · cases run
        exact ⟨still, by simpa using ends, results, drained, some⟩
      · cases run
        refine ⟨still, ?_, nofun, some⟩
        rintro left ⟨⟩
        exact Nat.zero_le n
      · cases run
        refine ⟨still, rest.length, few _ rfl, ?_, nofun, some⟩
        rintro left ⟨⟩
        exact Nat.le_refl _
    · cases run
      exact ⟨.refl uniform.toFaithful, nofun, results, before, m, bounded⟩
  rewind := by
    rintro st now s after n answer uniform ⟨results, before, m, bounded⟩ run
    rw [aggregate_rewind] at run
    rcases rewound : child.rewind (st.inner.child, s) with ⟨reply, c, between⟩
    rw [rewound] at run
    obtain ⟨still, restores⟩ := lasts.rewind uniform bounded rewound
    cases reply with
    | error stop =>
        cases run
        exact ⟨still, restores.1, results,
          fun none => (lasts.rewind uniform (before none) rewound).2.2, m, restores.2⟩
    | ok =>
        cases run
        exact ⟨still, nofun, fun _ => restores, most s, restores⟩

/-! ### All rows at once -/

theorem Lasts.collect {source : Source σ} (lasts : Lasts files source most within) {bound n : Nat}
    {st now : σ} {s after : Store} {answer : Except Stop (List Row)} (uniform : s.Uniform files)
    (before : within s st n) (enough : most s ≤ n) (small : n < bound)
    (run : source.collect bound (st, s) = (answer, now, after)) :
    s.Still files after ∧ answer ≠ .error .exhausted ∧ within after now n := by
  unfold Source.collect Step.collectRows at run
  rw [bind_apply] at run
  rcases began : source.start (st, s) with ⟨reply, mid, between⟩
  obtain ⟨still, conclusive, later⟩ := lasts.start uniform before enough began
  rw [began] at run
  cases reply with
  | error stop =>
      cases run
      exact ⟨still, by simpa using conclusive, later⟩
  | ok =>
      simp only [bind_apply] at run
      rcases taken : Step.foldRows (source.next bound) (fun acc row => return row :: acc) bound []
        (mid, between) with ⟨reply, last, store⟩
      have adds : ∀ (acc : List Row) row result, (Except.ok (row :: acc) : Except Stop _) = .ok result →
          result.length ≤ acc.length + 1 := by
        rintro acc row result ⟨⟩
        exact Nat.le_refl _
      obtain ⟨more, rest, ends, -⟩ := lasts.foldRows (fun acc row => .ok (row :: acc)) List.length
        adds (fun _ _ => nofun) (still.uniform uniform) later small small taken
      rw [taken] at run
      cases reply with
      | error stop =>
          cases run
          exact ⟨still.trans more, by simpa using ends, rest⟩
      | ok rows =>
          cases run
          exact ⟨still.trans more, nofun, rest⟩

end Source

/-! ## Plans -/

namespace Plan

variable {s : Store}

/-- More rows than a plan that only reads can have. -/
def most (files : TableId → Option TableFile) : Plan → Store → Nat
  | .scan table, s => Source.scanMost files table s
  | .rows _ given, _ => given.length
  | .filter child _, s | .aggregate child _, s | .insert _ child, s | .delete child, s =>
      child.most files s

/-- The plan only reads, and has no more rows to answer than so many. -/
def within (files : TableId → Option TableFile) : (p : Plan) → Store → p.State → Nat → Prop
  | .scan table => Source.scanWithin files table
  | .rows _ _ => Source.rowsWithin
  | .filter child _ => Source.filterWithin (child.within files)
  | .aggregate child _ => Source.GroupingWithin (child.within files)
  | .insert _ _ | .delete _ => fun _ _ _ => False

theorem lasts (txn : TxnId) (p : Plan) :
    Source.Lasts files (p.source txn) (p.most files) (p.within files) := by
  induction p with
  | scan table => exact Source.lasts_scan
  | rows schema given => exact Source.lasts_ofRows schema given
  | filter child predicate ih => exact Source.lasts_filter ih predicate
  | aggregate child a ih => exact Source.lasts_aggregate ih a
  | insert _ child | delete child =>
      exact ⟨fun _ before => before, fun _ before => before, fun _ before => before.elim,
        fun _ before => before.elim, fun _ before => before.elim⟩

theorem within_initial {p : Plan} (readOnly : p.ReadOnly) :
    p.within files s p.initial (p.most files s) := by
  induction p with
  | scan table => exact nofun
  | rows schema given => exact Nat.le_refl given.length
  | filter child predicate ih => exact ih readOnly
  | aggregate child a ih => exact ⟨nofun, fun _ => ih readOnly, _, ih readOnly⟩
  | insert _ child | delete child => exact readOnly.elim

theorem most_still {after : Store} (still : s.Still files after) (p : Plan) :
    p.most files after = p.most files s := by
  induction p with
  | scan table => simp only [most, Source.scanMost, still.pageCount]
  | rows schema given => rfl
  | filter child _ ih | aggregate child _ ih | insert _ child ih | delete child ih => exact ih

/-- **The bound is more than the rows there can be.** -/
theorem most_lt_rowBound (uniform : s.Uniform files) (p : Plan) : p.most files s < p.rowBound s := by
  have enough : p.most files s ≤ s.rowBound + p.givenRows := by
    induction p with
    | scan table =>
        rw [most, Source.scanMost, givenRows, Nat.add_zero]
        cases listed : files table with
        | none => exact Nat.zero_le _
        | some file => exact (uniform.slots_lt_rowBound listed).le
    | rows schema given =>
        rw [most, givenRows]
        exact Nat.le_add_left _ _
    | filter child _ ih | aggregate child _ ih | insert _ child ih | delete child ih =>
        rw [most, givenRows]
        exact ih
  rw [Plan.rowBound]
  omega

end Plan

/-! ## Runs -/

namespace Running

/-- A plan that only reads, after any calls, while nothing of the tables changes. -/
inductive Consulted (files : TableId → Option TableFile) : Running → Store → Prop where
  | new {s : Store} {plan : Plan} (uniform : s.Uniform files) (txn : TxnId)
      (readOnly : plan.ReadOnly) : Consulted files (.new txn plan) s
  | started {r now : Running} {s after : Store} {answer : Except Stop Unit}
      (before : Consulted files r s) (run : start (r, s) = (answer, now, after)) :
      Consulted files now after
  | pulled {r now : Running} {s after : Store} {answer : Except Stop (Option Row)}
      (before : Consulted files r s) (run : next (r, s) = (answer, now, after)) :
      Consulted files now after
  | rewound {r now : Running} {s after : Store} {answer : Except Stop Unit}
      (before : Consulted files r s) (run : rewind (r, s) = (answer, now, after)) :
      Consulted files now after
  | collected {r now : Running} {s after : Store} {answer : Except Stop (List Row)}
      (before : Consulted files r s) (run : collect (r, s) = (answer, now, after)) :
      Consulted files now after
  | meanwhile {r : Running} {s after : Store} (before : Consulted files r s)
      (still : s.Still files after) : Consulted files r after

variable {r : Running} {s after : Store}

/-- The plan has no more rows to answer than there can be. -/
structure Lasting (files : TableId → Option TableFile) (r : Running) (s : Store) : Prop where
  uniform : s.Uniform files
  within : r.plan.within files s r.state (r.plan.most files s)

theorem Lasting.kept (lasting : Lasting files r s) {state : r.plan.State}
    (still : s.Still files after) (within : r.plan.within files after state (r.plan.most files s)) :
    Lasting files { r with state } after := by
  refine ⟨still.uniform lasting.uniform, ?_⟩
  rw [Plan.most_still still]
  exact within

theorem Lasting.next (lasting : Lasting files r s) {state : r.plan.State}
    {answer : Except Stop (Option Row)}
    (ran : (r.plan.source r.txn).next (r.plan.rowBound s) (r.state, s) = (answer, state, after)) :
    Lasting files { r with state } after ∧ answer ≠ .error .exhausted := by
  have lasts : Source.Lasts files (r.plan.source r.txn) _ _ := Plan.lasts r.txn r.plan
  have small := Plan.most_lt_rowBound lasting.uniform r.plan
  obtain ⟨still, spends⟩ := lasts.next lasting.uniform lasting.within small ran
  rcases answer with stop | _ | row
  · exact ⟨lasting.kept still spends.2, by simpa using spends.1⟩
  · exact ⟨lasting.kept still spends, nofun⟩
  · obtain ⟨left, fewer, later⟩ := spends
    exact ⟨lasting.kept still (lasts.mono fewer.le later), nofun⟩

theorem Consulted.lasting (consulted : Consulted files r s) : Lasting files r s := by
  induction consulted with
  | new uniform txn readOnly => exact ⟨uniform, Plan.within_initial readOnly⟩
  | started _ run ih =>
      obtain ⟨state, rfl, ran⟩ := perform_cases run
      obtain ⟨still, -, later⟩ := (Plan.lasts _ _).start ih.uniform ih.within (Nat.le_refl _) ran
      exact ih.kept still later
  | pulled _ run ih =>
      obtain ⟨state, rfl, ran⟩ := perform_cases run
      exact (ih.next ran).1
  | rewound _ run ih =>
      obtain ⟨state, rfl, ran⟩ := perform_cases run
      obtain ⟨still, restores⟩ := (Plan.lasts _ _).rewind ih.uniform ih.within ran
      refine ih.kept still ?_
      rename_i answer _
      cases answer with
      | error stop => exact restores.2
      | ok => exact restores
  | collected _ run ih =>
      obtain ⟨state, rfl, ran⟩ := perform_cases run
      obtain ⟨still, -, later⟩ := (Plan.lasts _ _).collect ih.uniform ih.within (Nat.le_refl _)
        (Plan.most_lt_rowBound ih.uniform _) ran
      exact ih.kept still later
  | meanwhile _ still ih => exact ih.kept still ((Plan.lasts default _).still still ih.within)

/-- **A plan that only reads** answers or fails, but it never gives up for want of steps,
neither at one row nor at all of them. -/
theorem never_exhausted (consulted : Consulted files r s) :
    (next (r, s)).1 ≠ .error .exhausted ∧ (collect (r, s)).1 ≠ .error .exhausted := by
  have lasting := consulted.lasting
  have small := Plan.most_lt_rowBound lasting.uniform r.plan
  constructor
  · rcases run : next (r, s) with ⟨answer, now, after⟩
    obtain ⟨state, rfl, ran⟩ := perform_cases run
    exact (lasting.next ran).2
  · rcases run : collect (r, s) with ⟨answer, now, after⟩
    obtain ⟨state, rfl, ran⟩ := perform_cases run
    exact ((Plan.lasts _ _).collect lasting.uniform lasting.within (Nat.le_refl _) small ran).2.1

end Running

end RowStore
