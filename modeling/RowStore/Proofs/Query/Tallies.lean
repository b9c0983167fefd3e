/-
# RowStore.Proofs.Query.Tallies -- a tally is exact

A tally is kept in machine integers.  What it stands for is said in unbounded ones: how many
values it ran over, and the sum and the extremes of the integers among them (`Tally.Tells`).
Every value moves the sum by at most `2 ^ 31`, so over fewer than `2 ^ 32` values neither the
count nor the sum leaves its 64 bits (`Tally.tells_foldl`), and the result of an aggregate is
the one that unbounded integers give (`Tally.Tells.result`).  It is a value exactly if it is a
32-bit integer (`Tally.Tells.value_eq`).
-/
import Mathlib
import RowStore.Query.Aggregate

namespace RowStore

set_option autoImplicit false

/-- The integers among these values. -/
def Value.integers (values : List Value) : List Int :=
  values.filterMap fun v => v.int?.map Int32.toInt

/-- What an aggregate of these values is in unbounded integers.  An average is cut off toward
zero. -/
def AggregateFunction.exact (op : AggregateFunction) (values : List Value) : Int :=
  match op with
  | .count => values.length
  | .sum => (Value.integers values).sum
  | .avg => (Value.integers values).sum.tdiv values.length
  | .min => (Value.integers values).min?.getD 0
  | .max => (Value.integers values).max?.getD 0

/-- The number is a 32-bit integer. -/
def FitsInt (n : Int) : Prop := Int32.minValue.toInt ≤ n ∧ n ≤ Int32.maxValue.toInt

instance (n : Int) : Decidable (FitsInt n) := inferInstanceAs (Decidable (_ ∧ _))

theorem fitsInt_iff {n : Int} : FitsInt n ↔ -2 ^ 31 ≤ n ∧ n < 2 ^ 31 := by
  have least : Int32.minValue.toInt = -2 ^ 31 := by decide
  have greatest : Int32.maxValue.toInt = 2 ^ 31 - 1 := by decide
  unfold FitsInt
  rw [least, greatest]
  omega

theorem FitsInt.toInt_ofInt {n : Int} (fits : FitsInt n) : (Int32.ofInt n).toInt = n :=
  Int32.toInt_ofInt_of_le (fitsInt_iff.1 fits).1 (fitsInt_iff.1 fits).2

theorem fitsInt_toInt (n : Int32) : FitsInt n.toInt :=
  fitsInt_iff.2 ⟨n.le_toInt, n.toInt_lt⟩

/-! ## The integers of a column -/

namespace Value

variable {values : List Value} {v : Value} {n : Int32}

theorem integers_snoc_int : integers (values ++ [.int n]) = integers values ++ [n.toInt] := by
  simp [integers, int?]

theorem integers_snoc_other (other : v.int? = none) :
    integers (values ++ [v]) = integers values := by
  simp [integers, other]

theorem length_integers_le (values : List Value) : (integers values).length ≤ values.length :=
  List.length_filterMap_le _ _

theorem fitsInt_of_mem {m : Int} (member : m ∈ integers values) : FitsInt m := by
  obtain ⟨v, -, named⟩ := List.mem_filterMap.1 member
  obtain ⟨n, -, rfl⟩ := Option.map_eq_some_iff.1 named
  exact fitsInt_toInt n

/-- **Every integer moves the sum by at most `2 ^ 31`.** -/
theorem sum_integers_bounds (values : List Value) :
    -2 ^ 31 * (values.length : Int) ≤ (integers values).sum ∧
      (integers values).sum ≤ (2 ^ 31 - 1) * (values.length : Int) := by
  have few : ((integers values).length : Int) ≤ values.length := by
    exact_mod_cast length_integers_le values
  have least := List.card_nsmul_le_sum (integers values) (-2 ^ 31 : Int)
    fun m member => (fitsInt_iff.1 (fitsInt_of_mem member)).1
  have greatest := List.sum_le_card_nsmul (integers values) (2 ^ 31 - 1 : Int)
    fun m member => Int.le_sub_one_of_lt (fitsInt_iff.1 (fitsInt_of_mem member)).2
  rw [nsmul_eq_mul] at least greatest
  constructor <;> linarith

end Value

/-- The least of a list with one more number. -/
theorem min?_snoc (l : List Int) (n : Int) :
    (l ++ [n]).min? = some (match l.min? with | some m => min m n | none => n) := by
  cases l with
  | nil => rfl
  | cons m rest =>
      rw [List.cons_append, List.min?_cons', List.min?_cons', List.foldl_append]
      rfl

theorem max?_snoc (l : List Int) (n : Int) :
    (l ++ [n]).max? = some (match l.max? with | some m => max m n | none => n) := by
  cases l with
  | nil => rfl
  | cons m rest =>
      rw [List.cons_append, List.max?_cons', List.max?_cons', List.foldl_append]
      rfl

/-! ## Machine integers -/

theorem toInt_min (m n : Int32) : (min m n).toInt = min m.toInt n.toInt := by
  show (if m ≤ n then m else n).toInt = _
  rw [Int.min_def]
  simp only [Int32.le_iff_toInt_le]
  split <;> rfl

theorem toInt_max (m n : Int32) : (max m n).toInt = max m.toInt n.toInt := by
  show (if m ≤ n then n else m).toInt = _
  rw [Int.max_def]
  simp only [Int32.le_iff_toInt_le]
  split <;> rfl

theorem toInt_of_bmod {n : Int} (least : -2 ^ 63 ≤ n) (greatest : n < 2 ^ 63) :
    n.bmod (2 ^ 64) = n :=
  Int.bmod_eq_of_le (by omega) (by omega)

/-! ## Tallies -/

namespace Tally

/-- The tally is exact for these values. -/
structure Tells (t : Tally) (values : List Value) : Prop where
  count : t.count.toInt = values.length
  sum : t.sum.toInt = (Value.integers values).sum
  least : t.least?.map Int32.toInt = (Value.integers values).min?
  greatest : t.greatest?.map Int32.toInt = (Value.integers values).max?

variable {t : Tally} {values : List Value} {op : AggregateFunction}

theorem tells_empty : Tells empty [] := ⟨rfl, rfl, rfl, rfl⟩

theorem Tells.count_add_one (tells : t.Tells values) (few : values.length + 1 < 2 ^ 32)
    (v : Value) : (t.count + 1).toInt = (values ++ [v]).length := by
  have one : (1 : Int64).toInt = 1 := by decide
  rw [Int64.toInt_add, tells.count, one, toInt_of_bmod (by omega) (by omega)]
  simp

theorem Tells.add_int (tells : t.Tells values) (few : values.length + 1 < 2 ^ 32) (n : Int32) :
    (t.add (.int n)).Tells (values ++ [.int n]) := by
  have total : (Value.integers (values ++ [.int n])).sum =
      (Value.integers values).sum + n.toInt := by
    rw [Value.integers_snoc_int, List.sum_append, List.sum_singleton]
  have bounds := Value.sum_integers_bounds (values ++ [.int n])
  rw [total, List.length_append, List.length_singleton] at bounds
  refine ⟨tells.count_add_one few _, ?_, ?_, ?_⟩
  · show (t.sum + n.toInt64).toInt = _
    rw [Int64.toInt_add, tells.sum, Int32.toInt_toInt64, total]
    exact toInt_of_bmod (by omega) (by omega)
  · rw [Value.integers_snoc_int, min?_snoc, ← tells.least]
    show some (Int32.toInt _) = _
    cases t.least? with
    | none => rfl
    | some m => exact congrArg some (toInt_min m n)
  · rw [Value.integers_snoc_int, max?_snoc, ← tells.greatest]
    show some (Int32.toInt _) = _
    cases t.greatest? with
    | none => rfl
    | some m => exact congrArg some (toInt_max m n)

theorem Tells.add_other (tells : t.Tells values) (few : values.length + 1 < 2 ^ 32) {v : Value}
    (other : v.int? = none) : ({ t with count := t.count + 1 } : Tally).Tells (values ++ [v]) := by
  refine ⟨tells.count_add_one few v, ?_, ?_, ?_⟩ <;> rw [Value.integers_snoc_other other]
  · exact tells.sum
  · exact tells.least
  · exact tells.greatest

/-- **One more value** is told exactly as long as there are fewer than `2 ^ 32`. -/
theorem Tells.add (tells : t.Tells values) (few : values.length + 1 < 2 ^ 32) (v : Value) :
    (t.add v).Tells (values ++ [v]) := by
  cases v with
  | int n => exact tells.add_int few n
  | bool b => exact tells.add_other few rfl
  | text s => exact tells.add_other few rfl

/-- **Nothing overflows**: the tally of fewer than `2 ^ 32` values is exact. -/
theorem tells_foldl (few : values.length < 2 ^ 32) : (values.foldl add empty).Tells values := by
  induction values using List.reverseRecOn with
  | nil => exact tells_empty
  | append_singleton values v ih =>
      rw [List.length_append, List.length_singleton] at few
      rw [List.foldl_append]
      exact (ih (by omega)).add few v

/-! ## Results -/

theorem Tells.average (tells : t.Tells values) (some : values ≠ []) (few : values.length < 2 ^ 32) :
    (t.sum / max t.count 1).toInt = (Value.integers values).sum.tdiv values.length := by
  have one : (1 : Int64).toInt = 1 := by decide
  have counted : max t.count 1 = t.count := by
    have pos : 0 < values.length := List.length_pos_iff.2 some
    show (if t.count ≤ 1 then 1 else t.count) = _
    split
    · rename_i small
      rw [Int64.le_iff_toInt_le, tells.count, one] at small
      refine Int64.toInt_inj.1 ?_
      rw [tells.count, one]
      omega
    · rfl
  have bounds := Value.sum_integers_bounds values
  have near := Int.natAbs_tdiv_le_natAbs (Value.integers values).sum values.length
  rw [counted, Int64.toInt_div, tells.sum, tells.count]
  exact toInt_of_bmod (by omega) (by omega)

/-- **The result of an aggregate** is the one that unbounded integers give. -/
theorem Tells.result (tells : t.Tells values) (some : values ≠ []) (few : values.length < 2 ^ 32) :
    (t.result op).toInt = op.exact values := by
  cases op with
  | count => exact tells.count
  | sum => exact tells.sum
  | avg => exact tells.average some few
  | min =>
      show ((t.least?.map Int32.toInt64).getD 0).toInt = (Value.integers values).min?.getD 0
      rw [← tells.least]
      cases t.least? with
      | none => rfl
      | some n => exact n.toInt_toInt64
  | max =>
      show ((t.greatest?.map Int32.toInt64).getD 0).toInt = (Value.integers values).max?.getD 0
      rw [← tells.greatest]
      cases t.greatest? with
      | none => rfl
      | some n => exact n.toInt_toInt64

/-- **It is a value exactly if it is a 32-bit integer.** -/
theorem Tells.value_eq (tells : t.Tells values) (some : values ≠ [])
    (few : values.length < 2 ^ 32) :
    t.value op =
      if FitsInt (op.exact values) then .ok (.int (Int32.ofInt (op.exact values)))
      else .error (.unsupported (.overflow op (op.exact values))) := by
  rw [← tells.result some few]
  rfl

end Tally

end RowStore
