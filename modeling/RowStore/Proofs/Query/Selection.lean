/-
# RowStore.Proofs.Query.Selection -- the rows that a filter keeps

A filter pulls its child until a row satisfies its predicate.  Whatever the child does to the store
meanwhile, the rows that the filter answers are those of the child that satisfy the predicate,
in their order (`collect_filter`).

So filters on one column of one child can be compared by their predicates alone: each comparison
and its opposite part the rows that have a value of the operand's type there, and no comparison
keeps any other row (`filters_split`).
-/
import RowStore.Proofs.Query.Grouping
import RowStore.Proofs.Value.Order

namespace RowStore

set_option autoImplicit false

open RowStore.Action

/-! ## Comparisons of a column -/

/-- The rows kept are those of the rows that have the property, in their order. -/
def Keeps (Has : Row → Prop) (rows kept : List Row) : Prop :=
  ∃ p : Row → Bool, (∀ row, p row = true ↔ Has row) ∧ kept = rows.filter p

/-- The rows that have a value of this type in the column. -/
def typedRows (column : Nat) (type : DataType) (rows : List Row) : List Row :=
  rows.filter fun row => (row.value? column).map Value.type = some type

/-- The rows that each comparison of the column with the operand keeps of these rows: how the
comparisons relate to each other, and what they say. -/
structure Splits (column : Nat) (operand : Value) (rows : List Row)
    (kept : Comparison → List Row) : Prop where
  equal : Keeps (fun row => row.value? column = some operand) rows (kept .eq)
  below : Keeps (fun row => ∃ v, row.value? column = some v ∧ v.Below operand) rows (kept .lt)
  above : Keeps (fun row => ∃ v, row.value? column = some v ∧ operand.Below v) rows (kept .gt)
  like : ∀ part, operand = .text part →
    Keeps (fun row => ∃ whole, row.value? column = some (.text whole) ∧
      part.toList <:+: whole.toList) rows (kept .like)
  eq_or_ne : ∃ p, (typedRows column operand.type rows).partition p = (kept .eq, kept .ne)
  lt_or_ge : ∃ p, (typedRows column operand.type rows).partition p = (kept .lt, kept .ge)
  gt_or_le : ∃ p, (typedRows column operand.type rows).partition p = (kept .gt, kept .le)
  le_joins : kept .le = rows.filter fun row => row ∈ kept .lt ∨ row ∈ kept .eq
  ge_joins : kept .ge = rows.filter fun row => row ∈ kept .gt ∨ row ∈ kept .eq
  typed : ∀ op, ∀ row ∈ kept op, (row.value? column).map Value.type = some operand.type

section

variable {column : Nat} {operand : Value} {row : Row} {rows : List Row} {a b op : Comparison}

theorem Predicate.holds_iff :
    Predicate.holds ⟨column, op, operand⟩ row = true ↔
      ∃ v, row.value? column = some v ∧ v.satisfies op operand = true := by
  unfold Predicate.holds
  cases row.value? column <;> simp

/-- A comparison that says this of a value keeps the rows with such a value in the column. -/
theorem keeps_filter {Means : Value → Prop} (means : ∀ v, v.satisfies op operand = true ↔ Means v) :
    Keeps (fun row => ∃ v, row.value? column = some v ∧ Means v) rows
      (rows.filter (Predicate.holds ⟨column, op, operand⟩)) := by
  refine ⟨_, fun row => ?_, rfl⟩
  simp only [Predicate.holds_iff, means]

/-- **A comparison and its opposite** part the rows that have a value of the operand's type. -/
theorem partition_opposite (plain : a ≠ .like) (plain' : b ≠ .like)
    (opposite : ∀ o, b.admits o = !a.admits o) :
    ∃ p, (typedRows column operand.type rows).partition p =
      (rows.filter (Predicate.holds ⟨column, a, operand⟩),
        rows.filter (Predicate.holds ⟨column, b, operand⟩)) := by
  refine ⟨Predicate.holds ⟨column, a, operand⟩, ?_⟩
  unfold typedRows
  rw [List.partition_eq_filter_filter, List.filter_filter, List.filter_filter]
  refine Prod.ext (List.filter_congr fun row _ => ?_) (List.filter_congr fun row _ => ?_)
  · unfold Predicate.holds
    cases row.value? column with
    | none => rfl
    | some v =>
        have typed : v.satisfies a operand = true → v.type = operand.type :=
          Value.type_eq_of_satisfies
        simpa using typed
  · unfold Predicate.holds
    cases value : row.value? column with
    | none => simp
    | some v =>
        have reversed := Value.satisfies_opposite (v := v) (w := operand) plain plain' opposite
        simp [value, reversed, Bool.and_comm]

/-- A comparison that admits what one of two others does keeps the rows that one of them keeps. -/
theorem filter_joins {c : Comparison} (plain : a ≠ .like) (plain' : b ≠ .like)
    (plain'' : c ≠ .like) (either : ∀ o, c.admits o = (a.admits o || b.admits o)) :
    rows.filter (Predicate.holds ⟨column, c, operand⟩) =
      rows.filter fun row => row ∈ rows.filter (Predicate.holds ⟨column, a, operand⟩) ∨
        row ∈ rows.filter (Predicate.holds ⟨column, b, operand⟩) := by
  refine List.filter_congr fun row member => ?_
  unfold Predicate.holds
  cases value : row.value? column with
  | none => simp [value]
  | some v =>
      have joined := Value.satisfies_or (v := v) (w := operand) plain plain' plain'' either
      simp [value, member, joined]

/-- **The comparisons of a column** with an operand split the rows. -/
theorem splits_filter (column : Nat) (operand : Value) (rows : List Row) :
    Splits column operand rows fun op => rows.filter (Predicate.holds ⟨column, op, operand⟩) where
  equal := by
    obtain ⟨p, means, same⟩ := keeps_filter fun _ => Value.satisfies_eq_iff
    refine ⟨p, fun row => (means row).trans ?_, same⟩
    simp
  below := keeps_filter fun _ => Value.satisfies_lt_iff
  above := keeps_filter fun _ => Value.satisfies_gt_iff
  like := by
    rintro part rfl
    obtain ⟨p, means, same⟩ := keeps_filter fun _ => Value.satisfies_like_iff
    refine ⟨p, fun row => (means row).trans ?_, same⟩
    simp
  eq_or_ne := partition_opposite nofun nofun fun o => rfl
  lt_or_ge := partition_opposite nofun nofun fun o => rfl
  gt_or_le := partition_opposite nofun nofun fun o => rfl
  le_joins := filter_joins nofun nofun nofun (by decide)
  ge_joins := filter_joins nofun nofun nofun (by decide)
  typed := by
    intro op row member
    obtain ⟨v, value, holds⟩ := Predicate.holds_iff.1 (List.mem_filter.1 member).2
    rw [value]
    exact congrArg some (Value.type_eq_of_satisfies holds)

end

/-! ## The loop of a filter -/

namespace Source

variable {σ : Type} {child : Source σ} {predicate : Predicate} {bound : Nat} {c begun last : σ}
  {s mid after : Store} {rows : List Row} {next : Step σ (Option Row)} {st now : σ}

/-- The search of a stream for a row that satisfies the predicate finds the first of them, and
leaves the stream behind it. -/
theorem firstHolding_of_yields (predicate : Predicate)
    (yields : Step.Yields next st s rows now after)
    (few : rows.length < bound) :
    (rows.filter predicate.holds = [] ∧
        firstHolding next predicate bound (st, s) = (.ok none, now, after)) ∨
      ∃ row left mid between, rows.filter predicate.holds = row :: left.filter predicate.holds ∧
        left.length < rows.length ∧ Step.Yields next mid between left now after ∧
          firstHolding next predicate bound (st, s) = (.ok (some row), mid, between) := by
  induction yields generalizing bound with
  | done last =>
      obtain ⟨bound, rfl⟩ := Nat.exists_eq_add_one.2 few
      refine Or.inl ⟨rfl, ?_⟩
      rw [firstHolding_succ, last]
  | @row _ mid _ _ between _ row rows taken rest ih =>
      obtain ⟨bound, rfl⟩ := Nat.exists_eq_add_one.2 (Nat.zero_lt_of_lt few)
      rw [firstHolding_succ, taken]
      cases holds : predicate.holds row with
      | true =>
          refine Or.inr ⟨row, rows, mid, between, ?_, Nat.lt_succ_self _, rest, ?_⟩
          · rw [List.filter_cons_of_pos holds]
          · simp only [holds, if_true]
      | false =>
          have skipped : (row :: rows).filter predicate.holds = rows.filter predicate.holds := by
            rw [List.filter_cons_of_neg (by simp [holds])]
          simp only [skipped, holds, Bool.false_eq_true, if_false]
          rcases ih (Nat.lt_of_succ_lt_succ few) with ended | ⟨found, left, d, t, same, fewer, more⟩
          · exact Or.inl ended
          · exact Or.inr ⟨found, left, d, t, same, Nat.lt_succ_of_lt fewer, more⟩

/-- **The stream of a filter** has the rows of its child that satisfy the predicate. -/
theorem yields_filter (predicate : Predicate)
    (yields : Step.Yields (child.next bound) c s rows last after) (few : rows.length < bound) :
    Step.Yields ((filter child predicate).next bound) ⟨c, true⟩ s (rows.filter predicate.holds)
      ⟨last, true⟩ after := by
  induction length : rows.length using Nat.strong_induction_on generalizing rows c s with
  | _ count ih =>
      subst length
      rcases firstHolding_of_yields predicate yields few with
        ⟨none, searched⟩ | ⟨row, left, mid, between, same, fewer, more, searched⟩
      · rw [none]
        refine .done ?_
        rw [filter_next, if_pos rfl, searched]
      · rw [same]
        have taken : (filter child predicate).next bound (⟨c, true⟩, s) =
            (.ok (some row), ⟨mid, true⟩, between) := by
          rw [filter_next, if_pos rfl, searched]
        exact .row taken (ih _ fewer more (fewer.trans few) rfl)

/-- **A filter that is collected** over a child that answers these rows when it is collected alone:
it answers those that satisfy the predicate, and leaves what the child leaves. -/
theorem collect_filter (started : child.start (c, s) = (.ok (), begun, mid))
    (within : predicate.column < (child.schema begun).arity)
    (alone : child.collect bound (c, s) = (.ok rows, last, after)) :
    (filter child predicate).collect bound (⟨c, false⟩, s) =
      (.ok (rows.filter predicate.holds), ⟨last, true⟩, after) := by
  obtain ⟨taken, same, few, yields⟩ := Step.yields_of_listed (listed_of_collect started alone)
  rw [List.append_nil, List.reverse_inj] at same
  subst same
  have kept := yields_filter predicate yields few
  have listed := kept.foldRows_cons ((List.length_filter_le _ _).trans_lt few) []
  rw [collect_apply, filter_start, if_neg nofun]
  simp only [started, if_neg (Nat.not_le.2 within), listed, List.append_nil, List.reverse_reverse]

/-- **Filters split the rows of their child**: whatever child this is, the filters that compare
one of its columns with an operand answer rows of it that split as `Splits` says. -/
theorem filters_split {column : Nat} (operand : Value)
    (started : child.start (c, s) = (.ok (), begun, mid))
    (within : column < (child.schema begun).arity)
    (alone : child.collect bound (c, s) = (.ok rows, last, after)) :
    ∃ kept : Comparison → List Row,
      (∀ op, (filter child ⟨column, op, operand⟩).collect bound (⟨c, false⟩, s) =
        (.ok (kept op), ⟨last, true⟩, after)) ∧ Splits column operand rows kept :=
  ⟨_, fun _ => collect_filter started within alone, splits_filter column operand rows⟩

theorem filters_split_amounts :
    ∃ kept : Comparison → List Row,
      (∀ op, (filter (ofRows amounts flaggedAmounts) ⟨1, op, .int 4⟩).collect 4
          (⟨flaggedAmounts, false⟩, Store.flags) = (.ok (kept op), ⟨[], true⟩, Store.flags)) ∧
        Splits 1 (.int 4) (flaggedAmounts.map Row.fresh) kept ∧
        kept .ge = [Row.fresh [.bool false, .int 2147483647], Row.fresh [.bool true, .int 4]] := by
  have started : (ofRows amounts flaggedAmounts).start (flaggedAmounts, Store.flags) =
      (.ok (), flaggedAmounts, Store.flags) := rfl
  have alone : (ofRows amounts flaggedAmounts).collect 4 (flaggedAmounts, Store.flags) =
      (.ok (flaggedAmounts.map Row.fresh), [], Store.flags) := rfl
  obtain ⟨kept, answers, splits⟩ := filters_split (.int 4) started
    (show 1 < amounts.arity by decide) alone
  refine ⟨kept, answers, splits, ?_⟩
  have run : (filter (ofRows amounts flaggedAmounts) ⟨1, .ge, .int 4⟩).collect 4
      (⟨flaggedAmounts, false⟩, Store.flags) =
        (.ok [Row.fresh [.bool false, .int 2147483647], Row.fresh [.bool true, .int 4]],
          ⟨[], true⟩, Store.flags) := rfl
  rw [answers] at run
  exact Except.ok.inj (congrArg Prod.fst run)

end Source

end RowStore
