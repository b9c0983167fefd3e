/-
# RowStore.Proofs.Query.Grouping -- an aggregate answers one row per group

The groups of a list of rows are the values of their grouping column, in the order in which they
are first met (`Aggregation.groupsOf`), and each has the values of its rows in the column of the
aggregate (`Aggregation.valuesIn`).  The loop over the rows of the child looks a group up in a
map and adds to its tally; `Grouped` ties the map to the rows that the loop has come by.

So an aggregate that is collected answers what its groups say in unbounded integers, one row per
group, and fails exactly if one of them is no 32-bit integer (`collect_groups`).  It needs
nothing of its child but the rows that the child answers when it is collected alone.  A child
that only reads is always collected within the bound of its plan (`Running.never_exhausted`).
-/
import RowStore.Proofs.Query.Changes
import RowStore.Proofs.Query.Tallies

namespace RowStore

set_option autoImplicit false

open RowStore.Action

/-! ## Lists and maps -/

/-- One more member is listed last, unless it is there already. -/
theorem eraseDups_snoc {α : Type} [BEq α] [LawfulBEq α] (l : List α) (a : α) :
    (l ++ [a]).eraseDups = if a ∈ l then l.eraseDups else l.eraseDups ++ [a] := by
  rw [List.eraseDups_append]
  split
  · rename_i member
    simp [List.removeAll, member]
  · rename_i absent
    simp [List.removeAll, absent, List.eraseDups_cons]

theorem FinMap.entries_eq {κ ν : Type} [DecidableEq κ] (m : FinMap κ ν) (default : ν) :
    m.entries = m.keys.map fun k => (k, (m.get? k).getD default) := by
  unfold FinMap.keys
  rw [List.map_map]
  refine (List.map_id _).symm.trans (List.map_congr_left fun e member => ?_)
  show e = (e.1, (m.get? e.1).getD default)
  rw [FinMap.mem_entries.1 member]
  rfl

theorem FinMap.keys_insert {κ ν : Type} [DecidableEq κ] (m : FinMap κ ν) (k : κ) (v : ν) :
    (m.insert k v).keys = if k ∈ m.keys then m.keys else m.keys ++ [k] :=
  map_fst_put k v m.entries

/-- Answers that are all there are answered, or else the failure of one is. -/
theorem mapM_of_answers {α β ε : Type} {answer : α → Except ε β} {Fits : α → Prop}
    [DecidablePred Fits] {good : α → β} {bad : α → ε} {l : List α}
    (answers : ∀ a ∈ l, answer a = if Fits a then .ok (good a) else .error (bad a)) :
    ((∀ a ∈ l, Fits a) ∧ l.mapM answer = .ok (l.map good)) ∨
      ∃ a ∈ l, ¬ Fits a ∧ l.mapM answer = .error (bad a) := by
  induction l with
  | nil => exact Or.inl ⟨nofun, rfl⟩
  | cons a rest ih =>
      obtain ⟨first, others⟩ := List.forall_mem_cons.1 answers
      rw [List.mapM_cons, first]
      by_cases fits : Fits a
      · rw [if_pos fits]
        rcases ih others with ⟨all, same⟩ | ⟨b, member, fails, same⟩ <;> rw [same]
        · exact Or.inl ⟨List.forall_mem_cons.2 ⟨fits, all⟩, rfl⟩
        · exact Or.inr ⟨b, List.mem_cons_of_mem _ member, fails, rfl⟩
      · rw [if_neg fits]
        exact Or.inr ⟨a, List.mem_cons_self, fits, rfl⟩

/-! ## Groups -/

namespace Aggregation

variable (a : Aggregation)

/-- The group of a row is its value in the grouping column, if there is such a column. -/
def group (row : Row) : Option Value := a.groupBy.bind row.value?

/-- The groups of these rows, in the order in which they are first met. -/
def groupsOf (rows : List Row) : List (Option Value) := (rows.map a.group).eraseDups

/-- The values of a group: those that its rows have in the column of the aggregate. -/
def valuesIn (rows : List Row) (key : Option Value) : List Value :=
  (rows.filter fun row => decide (a.group row = key)).filterMap fun row => row.value? a.column

/-- The result for a group, in unbounded integers. -/
def exact (rows : List Row) (key : Option Value) : Int := a.op.exact (a.valuesIn rows key)

/-- The row that is answered for a group. -/
def groupRow (rows : List Row) (key : Option Value) : Row :=
  Row.fresh (key.toList ++ [.int (Int32.ofInt (a.exact rows key))])

variable {a} {child schema : Schema} {rows : List Row} {row : Row} {key : Option Value}
  {groups : Groups}

theorem mem_groupsOf : key ∈ a.groupsOf rows ↔ ∃ row ∈ rows, a.group row = key := by
  unfold groupsOf
  rw [List.mem_eraseDups, List.mem_map]

theorem groupsOf_snoc :
    a.groupsOf (rows ++ [row]) =
      if a.group row ∈ a.groupsOf rows then a.groupsOf rows
      else a.groupsOf rows ++ [a.group row] := by
  unfold groupsOf
  rw [List.map_append, List.map_singleton, eraseDups_snoc]
  simp only [List.mem_eraseDups]

theorem length_groupsOf_le (a : Aggregation) (rows : List Row) :
    (a.groupsOf rows).length ≤ rows.length := by
  induction rows using List.reverseRecOn with
  | nil => exact Nat.le_refl 0
  | append_singleton rows row ih =>
      rw [groupsOf_snoc, List.length_append, List.length_singleton]
      split
      · exact Nat.le_succ_of_le ih
      · rw [List.length_append, List.length_singleton]
        exact Nat.succ_le_succ ih

/-- Without a grouping column all rows are in one group. -/
theorem groupsOf_ungrouped (alone : a.groupBy = none) :
    a.groupsOf rows = if rows = [] then [] else [none] := by
  have key (row : Row) : a.group row = none := by
    unfold group
    rw [alone]
    rfl
  induction rows using List.reverseRecOn with
  | nil => rfl
  | append_singleton rows row ih =>
      rw [groupsOf_snoc, key, ih]
      by_cases first : rows = [] <;> simp [first]

theorem valuesIn_snoc {v : Value} (value : row.value? a.column = some v) :
    a.valuesIn (rows ++ [row]) key =
      if a.group row = key then a.valuesIn rows key ++ [v] else a.valuesIn rows key := by
  unfold valuesIn
  split
  · rename_i same
    simp [same, value]
  · rename_i other
    simp [other]

theorem length_valuesIn_le (a : Aggregation) (rows : List Row) (key : Option Value) :
    (a.valuesIn rows key).length ≤ rows.length :=
  (List.length_filterMap_le _ _).trans (List.length_filter_le _ _)

/-- The row has the columns that the aggregate looks at. -/
structure Sees (a : Aggregation) (row : Row) : Prop where
  key : a.keyOf row = .ok (a.group row)
  value : ∃ v, row.value? a.column = some v

/-- A row of the child's columns has those that the aggregate was started for. -/
theorem sees_of_check (known : a.outputSchema child = .ok schema)
    (checked : child.check row.values = .ok ()) : a.Sees row := by
  obtain ⟨⟨column, found⟩, -⟩ := outputSchema_cases known
  obtain ⟨v, value, -⟩ := Schema.value?_of_check checked found
  obtain ⟨key, same, fits⟩ := keyOf_fits known checked
  refine ⟨?_, v, value⟩
  unfold keyOf at same ⊢
  unfold group
  cases grouped : a.groupBy with
  | none => rfl
  | some index =>
      simp only [grouped] at same
      cases there : row.value? index with
      | none =>
          rw [there] at same
          cases same
      | some w => simp [there]

/-- A group that has come by has a value. -/
theorem valuesIn_ne_nil (sees : ∀ row ∈ rows, a.Sees row) (met : key ∈ a.groupsOf rows) :
    a.valuesIn rows key ≠ [] := by
  obtain ⟨row, member, same⟩ := mem_groupsOf.1 met
  obtain ⟨v, value⟩ := (sees row member).value
  have listed : v ∈ a.valuesIn rows key :=
    List.mem_filterMap.2 ⟨row, List.mem_filter.2 ⟨member, by simpa using same⟩, value⟩
  exact List.ne_nil_of_mem listed

/-! ## The loop over the rows -/

/-- The groups are those of these rows, and their tallies run over the values of each. -/
structure Grouped (a : Aggregation) (groups : Groups) (rows : List Row) : Prop where
  keys : groups.keys = a.groupsOf rows
  tally : ∀ key, (groups.get? key).getD .empty = (a.valuesIn rows key).foldl Tally.add .empty

theorem grouped_empty : a.Grouped ∅ [] := ⟨rfl, fun _ => rfl⟩

/-- **One more row** is added to the tally of its group. -/
theorem Grouped.addRow (grouped : a.Grouped groups rows) (sees : a.Sees row) :
    ∃ after, a.addRow groups row = .ok after ∧ a.Grouped after (rows ++ [row]) := by
  obtain ⟨v, value⟩ := sees.value
  unfold Aggregation.addRow
  rw [sees.key, value]
  refine ⟨_, rfl, ?_, fun key => ?_⟩
  · rw [FinMap.keys_insert, groupsOf_snoc, grouped.keys]
    by_cases met : a.group row ∈ a.groupsOf rows
    · rw [if_pos met, if_pos met]
    · rw [if_neg met, if_neg met]
  · rw [FinMap.get?_insert, valuesIn_snoc value]
    by_cases same : key = a.group row
    · rw [if_pos same, if_pos same.symm, List.foldl_append, ← grouped.tally, same]
      rfl
    · rw [if_neg same, if_neg (Ne.symm same), grouped.tally]

theorem grouped_foldlM (sees : ∀ row ∈ rows, a.Sees row) :
    ∃ groups, rows.foldlM a.addRow ∅ = .ok groups ∧ a.Grouped groups rows := by
  induction rows using List.reverseRecOn with
  | nil => exact ⟨∅, rfl, grouped_empty⟩
  | append_singleton rows row ih =>
      obtain ⟨groups, folded, grouped⟩ :=
        ih fun other member => sees other (List.mem_append_left _ member)
      obtain ⟨after, added, more⟩ := grouped.addRow (sees row (by simp))
      refine ⟨after, ?_, more⟩
      rw [List.foldlM_append, folded]
      show List.foldlM a.addRow groups [row] = _
      rw [List.foldlM_cons, added]
      rfl

/-- **Every tally is exact**, as long as there are fewer than `2 ^ 32` rows. -/
theorem Grouped.tells (grouped : a.Grouped groups rows) (few : rows.length < 2 ^ 32)
    {tally : Tally} (there : groups.get? key = some tally) : tally.Tells (a.valuesIn rows key) := by
  have same := grouped.tally key
  rw [there, Option.getD_some] at same
  rw [same]
  exact Tally.tells_foldl ((length_valuesIn_le a rows key).trans_lt few)

/-- **The results** are the rows of the groups, or the failure of one that has none. -/
theorem Grouped.results (grouped : a.Grouped groups rows) (sees : ∀ row ∈ rows, a.Sees row)
    (few : rows.length < 2 ^ 32) :
    ((∀ key ∈ a.groupsOf rows, FitsInt (a.exact rows key)) ∧
        a.results groups = .ok ((a.groupsOf rows).map (a.groupRow rows))) ∨
      ∃ key ∈ a.groupsOf rows, ¬ FitsInt (a.exact rows key) ∧
        a.results groups = .error (.unsupported (.overflow a.op (a.exact rows key))) := by
  unfold Aggregation.results
  rw [groups.entries_eq .empty, List.mapM_map, grouped.keys]
  refine mapM_of_answers fun key met => ?_
  obtain ⟨tally, there⟩ := FinMap.mem_keys.1 (grouped.keys ▸ met)
  have value : tally.value a.op = _ := (grouped.tells few there).value_eq
    (valuesIn_ne_nil sees met) ((length_valuesIn_le a rows key).trans_lt few)
  rw [Function.comp_apply, there]
  by_cases fits : FitsInt (a.exact rows key)
  · rw [if_pos fits]
    simp only [Option.getD_some, value.trans (if_pos fits)]
    rfl
  · rw [if_neg fits]
    simp only [Option.getD_some, value.trans (if_neg fits)]
    rfl

end Aggregation

/-! ## A stream that is listed -/

namespace Step

variable {σ : Type} {next : Step σ (Option Row)} {st now : σ} {s after : Store}
  {rows listed : List Row}

/-- The calls for a row answer these, one after the other, and then none. -/
inductive Yields (next : Step σ (Option Row)) : σ → Store → List Row → σ → Store → Prop where
  | done {st now : σ} {s after : Store} (last : next (st, s) = (.ok none, now, after)) :
      Yields next st s [] now after
  | row {st mid now : σ} {s between after : Store} {row : Row} {rows : List Row}
      (taken : next (st, s) = (.ok (some row), mid, between))
      (rest : Yields next mid between rows now after) : Yields next st s (row :: rows) now after

theorem yields_of_listed {turns : Nat} {front : List Row}
    (run : foldRows next (fun acc row => return row :: acc) turns front (st, s) =
      (.ok listed, now, after)) :
    ∃ rows, listed = rows.reverse ++ front ∧ rows.length < turns ∧
      Yields next st s rows now after := by
  induction turns generalizing st s front with
  | zero => cases run
  | succ turns ih =>
      rw [foldRows_succ] at run
      rcases tried : next (st, s) with ⟨_ | _ | row, mid, between⟩ <;> rw [tried] at run
      · cases run
      · cases run
        exact ⟨[], rfl, Nat.succ_pos _, .done tried⟩
      · obtain ⟨rows, same, few, yields⟩ := ih run
        refine ⟨row :: rows, ?_, Nat.succ_lt_succ few, .row tried yields⟩
        rw [same]
        simp

/-- **What a loop makes of the rows of a stream** depends on the rows only, if it leaves the
stream and the store alone. -/
theorem Yields.foldRows (yields : Yields next st s rows now after) {turns : Nat}
    (few : rows.length < turns) {β : Type} {fold : β → Row → Except Stop β} {acc result : β}
    (folded : rows.foldlM fold acc = .ok result) :
    Step.foldRows next (fun acc row => MonadExcept.ofExcept (fold acc row)) turns acc (st, s) =
      (.ok result, now, after) := by
  induction yields generalizing turns acc with
  | done last =>
      obtain ⟨turns, rfl⟩ := Nat.exists_eq_add_one.2 few
      cases folded
      rw [foldRows_succ, last]
  | @row _ _ _ _ _ _ row rows taken _ ih =>
      obtain ⟨turns, rfl⟩ := Nat.exists_eq_add_one.2 (Nat.zero_lt_of_lt few)
      rw [List.foldlM_cons] at folded
      rw [foldRows_succ, taken]
      simp only [except_apply]
      cases more : fold acc row with
      | error stop =>
          rw [more] at folded
          cases folded
      | ok acc =>
          rw [more] at folded
          exact ih (Nat.lt_of_succ_lt_succ few) folded

theorem Yields.foldRows_cons (yields : Yields next st s rows now after) {turns : Nat}
    (few : rows.length < turns) (front : List Row) :
    Step.foldRows next (fun acc row => return row :: acc) turns front (st, s) =
      (.ok (rows.reverse ++ front), now, after) := by
  have folded : rows.foldlM (fun acc row => pure (row :: acc)) front =
      (.ok (rows.reverse ++ front) : Except Stop (List Row)) := by
    rw [List.foldlM_pure, List.foldl_flip_cons_eq_append']
    rfl
  exact yields.foldRows few folded

/-- The loop looks at the state through the stream only. -/
theorem foldRows_congr {β : Type} {fold : β → Row → Step σ β} {w v : σ × Store}
    (same : next w = next v) (turns : Nat) (acc : β) :
    foldRows next fold (turns + 1) acc w = foldRows next fold (turns + 1) acc v := by
  obtain ⟨_, _⟩ := w
  obtain ⟨_, _⟩ := v
  rw [foldRows_succ, foldRows_succ, same]

end Step

namespace Source

variable {σ : Type} {child : Source σ} {a : Aggregation} {bound : Nat} {c begun last : σ}
  {s mid after : Store} {rows : List Row}

/-- The results that are there are answered one after the other. -/
theorem listed_results {st : GroupingState σ} (ready : st.inner.ready = true) {left : List Row}
    (there : st.results? = some left) {turns : Nat} (few : left.length < turns)
    (front : List Row) :
    Step.foldRows ((aggregate child a).next bound) (fun acc row => return row :: acc) turns front
        (st, s) = (.ok (left.reverse ++ front), { st with results? := some [] }, s) := by
  induction left generalizing st turns front with
  | nil =>
      obtain ⟨turns, rfl⟩ := Nat.exists_eq_add_one.2 few
      rw [Step.foldRows_succ, aggregate_next, if_pos ready, there]
      rfl
  | cons row rest ih =>
      obtain ⟨turns, rfl⟩ := Nat.exists_eq_add_one.2 (Nat.zero_lt_of_lt few)
      rw [Step.foldRows_succ, aggregate_next, if_pos ready, there]
      have later := @ih { st with results? := some rest } ready rfl turns
        (Nat.lt_of_succ_lt_succ few) (row :: front)
      rw [List.reverse_cons, List.append_assoc]
      exact later

/-- The rows that a source answers when it is collected, as its loop lists them. -/
theorem listed_of_collect (started : child.start (c, s) = (.ok (), begun, mid))
    (alone : child.collect bound (c, s) = (.ok rows, last, after)) :
    Step.foldRows (child.next bound) (fun acc row => return row :: acc) bound [] (begun, mid) =
      (.ok rows.reverse, last, after) := by
  rw [collect_apply, started] at alone
  dsimp only at alone
  rcases run : Step.foldRows (child.next bound) (fun acc row => return row :: acc) bound []
    (begun, mid) with ⟨_ | listed, w⟩ <;> rw [run] at alone
  · cases alone
  · cases alone
    rw [List.reverse_reverse]

/-- **The results of an aggregate** over a child that answers these rows. -/
theorem compute_listed
    (listed : Step.foldRows (child.next bound) (fun acc row => return row :: acc) bound []
      (begun, mid) = (.ok rows.reverse, last, after))
    (sees : ∀ row ∈ rows, a.Sees row) (few : rows.length < 2 ^ 32) :
    ((∀ key ∈ a.groupsOf rows, FitsInt (a.exact rows key)) ∧
        compute child a bound (begun, mid) =
          (.ok ((a.groupsOf rows).map (a.groupRow rows)), last, after)) ∨
      ∃ key ∈ a.groupsOf rows, ¬ FitsInt (a.exact rows key) ∧
        compute child a bound (begun, mid) =
          (.error (.fault (.unsupported (.overflow a.op (a.exact rows key)))), last, after) := by
  obtain ⟨taken, same, turns, yields⟩ := Step.yields_of_listed listed
  rw [List.append_nil, List.reverse_inj] at same
  subst same
  obtain ⟨groups, folded, grouped⟩ := Aggregation.grouped_foldlM sees
  rw [compute_apply, yields.foldRows turns folded]
  rcases grouped.results sees few with ⟨fit, same⟩ | ⟨key, met, fails, same⟩ <;>
    simp only [same]
  · exact Or.inl ⟨fit, rfl⟩
  · exact Or.inr ⟨key, met, fails, rfl⟩

/-- An aggregate that has begun answers its results, or fails with the failure of one. -/
theorem foldRows_aggregate {columns : Schema} {turns : Nat} {answers : List Row}
    (computed : compute child a bound (begun, mid) = (.ok answers, last, after))
    (few : answers.length ≤ turns) :
    Step.foldRows ((aggregate child a).next bound) (fun acc row => return row :: acc) (turns + 1) []
        (⟨⟨begun, true⟩, columns, none⟩, mid) =
      (.ok answers.reverse, ⟨⟨last, true⟩, columns, some []⟩, after) := by
  have same : (aggregate child a).next bound (⟨⟨begun, true⟩, columns, none⟩, mid) =
      (aggregate child a).next bound (⟨⟨last, true⟩, columns, some answers⟩, after) := by
    rw [aggregate_next, aggregate_next, if_pos rfl, if_pos rfl]
    simp only [pending, computed]
    rfl
  rw [Step.foldRows_congr same, listed_results rfl rfl (Nat.lt_succ_of_le few), List.append_nil]

/-- **One row per group**: an aggregate of a child that answers fewer than `2 ^ 32` rows answers
one row for each group of these rows, in the order in which the groups are first met, and it has
the result that unbounded integers give.  It fails exactly if one of these results is no 32-bit
integer, and no tally overflows over any of the first rows. -/
theorem collect_groups {schema columns : Schema}
    (started : child.start (c, s) = (.ok (), begun, mid))
    (supported : a.outputSchema (child.schema begun) = .ok columns)
    (alone : child.collect bound (c, s) = (.ok rows, last, after))
    (checked : ∀ row ∈ rows, (child.schema begun).check row.values = .ok ())
    (few : rows.length < 2 ^ 32) :
    ∃ answer ended,
      (aggregate child a).collect bound (⟨⟨c, false⟩, schema, none⟩, s) = (answer, ended, after) ∧
      ((∃ cause, answer = .error (.fault (.unsupported cause))) ↔
        ∃ key ∈ a.groupsOf rows, ¬ FitsInt (a.exact rows key)) ∧
      ((∀ key ∈ a.groupsOf rows, FitsInt (a.exact rows key)) →
        ∃ answers, answer = .ok answers ∧
          List.Forall₂ (fun key row => ∃ n : Int32, n.toInt = a.exact rows key ∧
            row = Row.fresh (key.toList ++ [.int n])) (a.groupsOf rows) answers ∧
          (a.groupBy = none → answers.length = if rows = [] then 0 else 1)) ∧
      ∀ front, front <+: rows → ∃ groups, front.foldlM a.addRow ∅ = .ok groups ∧
        groups.keys = a.groupsOf front ∧
        ∀ key tally, groups.get? key = some tally → tally.Tells (a.valuesIn front key) := by
  have sees : ∀ row ∈ rows, a.Sees row := fun row member =>
    Aggregation.sees_of_check supported (checked row member)
  have listed := listed_of_collect started alone
  obtain ⟨taken, same, room, -⟩ := Step.yields_of_listed listed
  rw [List.append_nil, List.reverse_inj] at same
  subst same
  have tells : ∀ front, front <+: rows → ∃ groups, front.foldlM a.addRow ∅ = .ok groups ∧
      groups.keys = a.groupsOf front ∧
      ∀ key tally, groups.get? key = some tally → tally.Tells (a.valuesIn front key) := by
    intro front leads
    obtain ⟨groups, folded, grouped⟩ :=
      Aggregation.grouped_foldlM fun row member => sees row (leads.subset member)
    exact ⟨groups, folded, grouped.keys, fun key tally there =>
      grouped.tells (leads.length_le.trans_lt few) there⟩
  obtain ⟨turns, rfl⟩ := Nat.exists_eq_add_one.2 (Nat.zero_lt_of_lt room)
  rw [collect_apply, aggregate_start, if_neg nofun]
  simp only [started, supported]
  rcases compute_listed listed sees few with ⟨fit, computed⟩ | ⟨key, met, fails, computed⟩
  · rw [foldRows_aggregate computed (by
      rw [List.length_map]
      exact (Aggregation.length_groupsOf_le a rows).trans (Nat.le_of_lt_succ room))]
    simp only [List.reverse_reverse]
    refine ⟨_, _, rfl, ⟨?_, ?_⟩, fun _ => ⟨_, rfl, ?_, fun alone => ?_⟩, tells⟩
    · rintro ⟨cause, failed⟩
      cases failed
    · rintro ⟨key, met, fails⟩
      exact absurd (fit key met) fails
    · exact List.forall₂_map_right_iff.2 (List.forall₂_same.2 fun key met =>
        ⟨_, (fit key met).toInt_ofInt, rfl⟩)
    · rw [List.length_map, Aggregation.groupsOf_ungrouped alone]
      split <;> rfl
  · rw [Step.foldRows_succ, aggregate_next, if_pos rfl]
    simp only [pending, computed]
    refine ⟨_, _, rfl, ⟨fun _ => ⟨key, met, fails⟩, fun _ => ⟨_, rfl⟩⟩, fun fit => ?_, tells⟩
    exact absurd (fit key met) fails

/-- A flag and an amount. -/
def amounts : Schema := ⟨[⟨"flag", .boolean⟩, ⟨"amount", .int⟩]⟩

/-- The average of the set flags is negative, and that of the others as large as it can be. -/
def flaggedAmounts : List (List Value) :=
  [[.bool true, .int (-7)], [.bool false, .int 2147483647], [.bool true, .int 4]]

theorem collect_average : ∃ ended,
    (aggregate (ofRows amounts flaggedAmounts) ⟨.avg, 1, some 0⟩).collect 4
        (⟨⟨flaggedAmounts, false⟩, ⟨[]⟩, none⟩, Store.flags) =
      (.ok [Row.fresh [.bool true, .int (-1)], Row.fresh [.bool false, .int 2147483647]],
        ended, Store.flags) := by
  have started : (ofRows amounts flaggedAmounts).start (flaggedAmounts, Store.flags) =
      (.ok (), flaggedAmounts, Store.flags) := rfl
  have alone : (ofRows amounts flaggedAmounts).collect 4 (flaggedAmounts, Store.flags) =
      (.ok (flaggedAmounts.map Row.fresh), [], Store.flags) := rfl
  have supported : (⟨.avg, 1, some 0⟩ : Aggregation).outputSchema amounts =
      .ok ⟨[⟨"flag", .boolean⟩, ⟨"AVG(amount)", .int⟩]⟩ := rfl
  have checked : ∀ row ∈ flaggedAmounts.map Row.fresh, amounts.check row.values = .ok () := by
    decide
  obtain ⟨_, ended, run, -, answered, -⟩ :=
    @collect_groups _ _ _ _ _ _ _ _ _ _ _ ⟨[]⟩ _ started supported alone checked (by decide)
  obtain ⟨answers, rfl, each, -⟩ := answered (by decide)
  have groups : (⟨.avg, 1, some 0⟩ : Aggregation).groupsOf (flaggedAmounts.map Row.fresh) =
      [some (.bool true), some (.bool false)] := by decide
  rw [groups] at each
  obtain _ | ⟨⟨m, first, rfl⟩, _ | ⟨⟨n, second, rfl⟩, _ | _⟩⟩ := each
  obtain rfl : m = -1 := Int32.toInt_inj.1 (first.trans (by decide))
  obtain rfl : n = 2147483647 := Int32.toInt_inj.1 (second.trans (by decide))
  exact ⟨ended, run⟩

end Source

end RowStore
