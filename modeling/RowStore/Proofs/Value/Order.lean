/-
# RowStore.Proofs.Value.Order -- the values of one type are in a row

`Value.Below` is the order of the values of one type, said for each type by itself.  Of two values
of one type exactly one is below the other unless they are equal (`order?_cases`), and values of
two types are not ordered at all.  What a comparison asks of two values is said in terms of this
order (`satisfies_eq_iff`, `satisfies_lt_iff`, `satisfies_gt_iff`, `satisfies_or`).
-/
import Mathlib
import RowStore.Value

namespace RowStore

set_option autoImplicit false

namespace Value

variable {v w : Value}

/-- The first value comes before the second: `false` before `true`, numbers by their size, and
texts by the first character in which they differ, or else the shorter one. -/
inductive Below : Value → Value → Prop where
  | bool : Below (.bool false) (.bool true)
  | int {m n : Int32} (less : m.toInt < n.toInt) : Below (.int m) (.int n)
  | text {s t : String} (less : s.toList < t.toList) : Below (.text s) (.text t)

theorem order?_lt_iff : v.order? w = some .lt ↔ Below v w := by
  constructor
  · intro less
    match v, w, less with
    | .bool false, .bool true, _ => exact .bool
    | .int m, .int n, less =>
        exact .int (Int32.lt_iff_toInt_lt.1 (Std.compare_eq_lt.1 (Option.some.inj less)))
    | .text s, .text t, less =>
        exact .text (String.lt_iff_toList_lt.1 (compare_lt_iff_lt.1 (Option.some.inj less)))
  · rintro (_ | less | less)
    · rfl
    · exact congrArg some (Std.compare_eq_lt.2 (Int32.lt_iff_toInt_lt.2 less))
    · exact congrArg some (compare_lt_iff_lt.2 (String.lt_iff_toList_lt.2 less))

theorem order?_eq_iff : v.order? w = some .eq ↔ v = w := by
  constructor
  · intro same
    match v, w, same with
    | .bool false, .bool false, _ => rfl
    | .bool true, .bool true, _ => rfl
    | .int m, .int n, same =>
        exact congrArg Value.int (Std.compare_eq_iff_eq.1 (Option.some.inj same))
    | .text s, .text t, same =>
        exact congrArg Value.text (compare_eq_iff_eq.1 (Option.some.inj same))
  · rintro rfl
    cases v with
    | bool b => cases b <;> rfl
    | int n => exact congrArg some (Std.compare_eq_iff_eq.2 rfl)
    | text s => exact congrArg some (compare_eq_iff_eq.2 rfl)

/-- The order of two values is turned round with them. -/
theorem order?_swap (v w : Value) : w.order? v = (v.order? w).map Ordering.swap := by
  match v, w with
  | .bool a, .bool b => cases a <;> cases b <;> rfl
  | .int m, .int n => exact congrArg some Std.OrientedCmp.eq_swap
  | .text s, .text t => exact congrArg some Std.OrientedCmp.eq_swap
  | .bool _, .int _ | .bool _, .text _ | .int _, .bool _ | .int _, .text _ | .text _, .bool _
  | .text _, .int _ => rfl

theorem order?_gt_iff : v.order? w = some .gt ↔ Below w v := by
  rw [← order?_lt_iff, order?_swap v w]
  cases v.order? w with
  | none => simp
  | some o => cases o <;> simp

/-- **The values of a type are in a row**, and those of two types are not comparable. -/
theorem order?_cases (v w : Value) :
    (v.order? w = none ∧ v.type ≠ w.type) ∨ (v.order? w = some .lt ∧ Below v w) ∨
      (v.order? w = some .eq ∧ v = w) ∨ (v.order? w = some .gt ∧ Below w v) := by
  cases ordered : v.order? w with
  | none =>
      refine Or.inl ⟨rfl, fun same => ?_⟩
      have comparable := order?_isSome_iff.2 same
      rw [ordered] at comparable
      cases comparable
  | some o =>
      cases o with
      | lt => exact Or.inr (Or.inl ⟨rfl, order?_lt_iff.1 ordered⟩)
      | eq => exact Or.inr (Or.inr (Or.inl ⟨rfl, order?_eq_iff.1 ordered⟩))
      | gt => exact Or.inr (Or.inr (Or.inr ⟨rfl, order?_gt_iff.1 ordered⟩))

/-! ## Comparisons -/

/-- All comparisons but `like` look at the order only. -/
theorem satisfies_eq_any (op : Comparison) (plain : op ≠ .like) :
    v.satisfies op w = (v.order? w).any op.admits := by
  cases op with
  | like => exact absurd rfl plain
  | _ => cases v <;> cases w <;> rfl

/-- Values that satisfy a comparison are of one type. -/
theorem type_eq_of_satisfies {op : Comparison} (holds : v.satisfies op w = true) :
    v.type = w.type := by
  by_cases plain : op = .like
  · subst plain
    cases v <;> cases w <;> simp_all [satisfies, type]
  · rw [satisfies_eq_any op plain] at holds
    obtain ⟨comparable, -⟩ := (Option.any_eq_true_iff_get _ _).1 holds
    exact order?_isSome_iff.1 comparable

section

variable {a b c : Comparison} (plain : a ≠ .like) (plain' : b ≠ .like) (plain'' : c ≠ .like)

include plain

/-- A comparison that admits one order says that the values are in this order. -/
theorem satisfies_iff_order? {o : Ordering} (only : ∀ p, a.admits p = decide (p = o)) :
    v.satisfies a w = true ↔ v.order? w = some o := by
  rw [satisfies_eq_any a plain]
  cases v.order? w <;> simp [only]

include plain'

/-- Of two comparisons of which one admits what the other does not, the values of one type satisfy
exactly one, and those of two types neither. -/
theorem satisfies_opposite (opposite : ∀ o, b.admits o = !a.admits o) :
    v.satisfies b w = (decide (v.type = w.type) && !v.satisfies a w) := by
  rw [satisfies_eq_any a plain, satisfies_eq_any b plain']
  rcases order?_cases v w with ⟨none, apart⟩ | ⟨some, -⟩ | ⟨some, -⟩ | ⟨some, -⟩
  · simp [none, apart]
  all_goals
    have same : v.type = w.type := order?_isSome_iff.1 (by rw [some]; rfl)
    simp [some, same, opposite]

include plain''

/-- A comparison that admits what one of two others does is satisfied if one of them is. -/
theorem satisfies_or (either : ∀ o, c.admits o = (a.admits o || b.admits o)) :
    v.satisfies c w = (v.satisfies a w || v.satisfies b w) := by
  rw [satisfies_eq_any a plain, satisfies_eq_any b plain', satisfies_eq_any c plain'']
  cases v.order? w <;> simp [either]

end

theorem satisfies_eq_iff : v.satisfies .eq w = true ↔ v = w :=
  (satisfies_iff_order? (show Comparison.eq ≠ .like by decide) (by decide)).trans order?_eq_iff

theorem satisfies_lt_iff : v.satisfies .lt w = true ↔ Below v w :=
  (satisfies_iff_order? (show Comparison.lt ≠ .like by decide) (by decide)).trans order?_lt_iff

theorem satisfies_gt_iff : v.satisfies .gt w = true ↔ Below w v :=
  (satisfies_iff_order? (show Comparison.gt ≠ .like by decide) (by decide)).trans order?_gt_iff

/-- A text is like another one that stands somewhere in it. -/
theorem satisfies_like_iff {part : String} :
    v.satisfies .like (.text part) = true ↔
      ∃ whole, v = .text whole ∧ part.toList <:+: whole.toList := by
  cases v with
  | text whole => simp [satisfies, occursIn_iff]
  | _ => simp [satisfies]

end Value

end RowStore
