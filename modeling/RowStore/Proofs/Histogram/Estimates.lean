/-
# RowStore.Proofs.Histogram.Estimates -- estimates over exact numbers

Over the rational numbers the estimates of a histogram are consistent (`coherent_new`).  All of it
comes from one formula: the expected number of values below `v` is a sum over all buckets, in
which each counts by the `part` of it that lies below `v` (`expectedBelow_eq_sum`).  A bucket on the
left of `v` counts whole and one on its right not at all, so neither the border between two buckets
nor an end of the range is a case of its own, and what is monotone in every part is monotone.

Where every integer of the range has its own bucket, the part of a bucket is one or nothing, and
the expected number is the number of values below (`expectedBelow_unit`).
-/
import Mathlib
import RowStore.Proofs.Histogram.Counts
import RowStore.Proofs.Value.Order

namespace RowStore

set_option autoImplicit false

/-- Rational numbers, with no rounding. -/
instance : Measure ℚ where
  ofInt n := n
  floor x := ⌊x⌋₊
  less x y := decide (x < y)

theorem Measure.clamp_eq (x : ℚ) : Measure.clamp x = max 0 (min x 1) := by
  have zero : (Measure.ofInt 0 : ℚ) = 0 := Int.cast_zero
  have one : (Measure.ofInt 1 : ℚ) = 1 := Int.cast_one
  simp only [Measure.clamp, Measure.less, zero, one, decide_eq_true_eq]
  rcases lt_or_ge x 0 with negative | nonneg
  · rw [if_pos negative, if_neg (not_lt.2 zero_le_one), min_eq_left (by linarith),
      max_eq_left negative.le]
  · rw [if_neg (not_lt.2 nonneg)]
    rcases lt_or_ge 1 x with past | within
    · rw [if_pos past, min_eq_right past.le, max_eq_right zero_le_one]
    · rw [if_neg (not_lt.2 within), min_eq_left within, max_eq_right nonneg]

theorem Measure.clamp_of_mem {x : ℚ} (low : 0 ≤ x) (high : x ≤ 1) : Measure.clamp x = x := by
  rw [Measure.clamp_eq, min_eq_left high, max_eq_right low]

/-- The differences between the values of a function at neighbours add up. -/
theorem sum_Icc_sub (f : Int → ℚ) {a b : Int} (ordered : a ≤ b) :
    ∑ k ∈ Finset.Icc a b, (f (k + 1) - f k) = f (b + 1) - f a := by
  induction b, ordered using Int.leInduction with
  | base => simp
  | succ n le ih =>
      rw [← Finset.insert_Icc_right_eq_Icc_add_one (by omega), Finset.sum_insert (by simp), ih]
      ring

theorem sum_map_ite (p : Int32 → Prop) [DecidablePred p] (vs : List Int32) :
    (vs.map fun x => if p x then (1 : ℚ) else 0).sum = (vs.countP p : Nat) := by
  induction vs with
  | nil => simp
  | cons x vs ih =>
      rw [List.map_cons, List.sum_cons, ih, List.countP_cons]
      by_cases holds : p x <;> simp [holds, add_comm]

theorem Value.below_int_iff {m n : Int32} :
    Value.Below (.int m) (.int n) ↔ m.toInt < n.toInt := by
  constructor
  · rintro ⟨⟩
    assumption
  · exact Value.Below.int

namespace Histogram

variable {h : Histogram ℚ} {vs : List Int32} {v w : Int}

/-- The range is cut into buckets of one width. -/
structure Cut (h : Histogram ℚ) : Prop where
  some : 0 < h.buckets
  ordered : h.low.toInt ≤ h.high.toInt
  width : h.width * h.buckets = h.high.toInt - h.low.toInt + 1

/-- How many buckets lie below `v`, as a number that need not be whole. -/
def position (h : Histogram ℚ) (v : Int) : ℚ := (v - h.low.toInt) / h.width

/-- The part of a bucket that lies below `v`. -/
def part (h : Histogram ℚ) (v : Int) (index : Nat) : ℚ := Measure.clamp (h.position v - index)

/-! ## Places in the range -/

theorem cast_rangeSize {low high : Int32} (ordered : low.toInt ≤ high.toInt) :
    (rangeSize low high : ℚ) = high.toInt - low.toInt + 1 := by
  have whole : (rangeSize low high : Int) = high.toInt - low.toInt + 1 :=
    Int.toNat_of_nonneg (by omega)
  exact_mod_cast congrArg (Int.cast : Int → ℚ) whole

theorem Cut.width_pos (cut : h.Cut) : 0 < h.width := by
  have some : (0 : ℚ) < h.buckets := by exact_mod_cast cut.some
  have ordered : (h.low.toInt : ℚ) ≤ h.high.toInt := by exact_mod_cast cut.ordered
  have range : 0 < h.width * h.buckets := by
    rw [cut.width]
    linarith
  exact pos_of_mul_pos_left range some.le

theorem Cut.position_mono (cut : h.Cut) (le : v ≤ w) : h.position v ≤ h.position w := by
  have le' : (v : ℚ) ≤ w := by exact_mod_cast le
  unfold position
  exact div_le_div_of_nonneg_right (by linarith) cut.width_pos.le

theorem Cut.position_le_zero (cut : h.Cut) (before : v ≤ h.low.toInt) : h.position v ≤ 0 := by
  have start : h.position h.low.toInt = 0 := by rw [position, sub_self, zero_div]
  rw [← start]
  exact cut.position_mono before

theorem Cut.position_nonneg (cut : h.Cut) (inside : h.low.toInt ≤ v) : 0 ≤ h.position v := by
  have inside' : (h.low.toInt : ℚ) ≤ v := by exact_mod_cast inside
  exact div_nonneg (by linarith) cut.width_pos.le

theorem Cut.buckets_le_position (cut : h.Cut) (past : h.high.toInt < v) :
    (h.buckets : ℚ) ≤ h.position v := by
  have past' : (h.high.toInt : ℚ) + 1 ≤ v := by exact_mod_cast past
  unfold position
  rw [le_div_iff₀ cut.width_pos, mul_comm, cut.width]
  linarith

theorem Cut.position_lt_buckets (cut : h.Cut) (inside : v ≤ h.high.toInt) :
    h.position v < h.buckets := by
  have inside' : (v : ℚ) ≤ h.high.toInt := by exact_mod_cast inside
  unfold position
  rw [div_lt_iff₀ cut.width_pos, mul_comm, cut.width]
  linarith

/-- Inside the range the bucket of a place is the whole part of its position. -/
theorem Cut.bucketOf_eq (cut : h.Cut) (first : h.low.toInt ≤ v) (last : v ≤ h.high.toInt) :
    h.bucketOf v = ⌊h.position v⌋₊ := by
  have inside : ⌊h.position v⌋₊ < h.buckets :=
    (Nat.floor_lt (cut.position_nonneg first)).2 (cut.position_lt_buckets last)
  have same : h.bucketOf v = min ⌊h.position v⌋₊ (h.buckets - 1) := by
    simp only [bucketOf, Measure.floor, Measure.ofInt, position, Int.cast_sub]
    rfl
  rw [same]
  omega

/-! ## Parts of buckets -/

theorem part_nonneg (h : Histogram ℚ) (v : Int) (index : Nat) : 0 ≤ h.part v index := by
  rw [part, Measure.clamp_eq]
  exact le_max_left _ _

theorem part_le_one (h : Histogram ℚ) (v : Int) (index : Nat) : h.part v index ≤ 1 := by
  rw [part, Measure.clamp_eq]
  exact max_le zero_le_one (min_le_right _ _)

theorem Cut.part_mono (cut : h.Cut) (le : v ≤ w) (index : Nat) : h.part v index ≤ h.part w index := by
  rw [part, part, Measure.clamp_eq, Measure.clamp_eq]
  exact max_le_max_left _ (min_le_min_right _ (sub_le_sub_right (cut.position_mono le) _))

theorem part_eq_one {index : Nat} (behind : (index : ℚ) + 1 ≤ h.position v) :
    h.part v index = 1 := by
  rw [part, Measure.clamp_eq, min_eq_right (by linarith), max_eq_right zero_le_one]

theorem part_eq_zero {index : Nat} (ahead : h.position v ≤ index) : h.part v index = 0 := by
  rw [part, Measure.clamp_eq, max_eq_left]
  exact (min_le_left _ _).trans (by linarith)

/-! ## The expected number of values -/

section

variable (cut : h.Cut)

include cut

/-- Inside the range the buckets before that of `v` count whole, and those behind it not at all. -/
theorem Cut.sum_parts (first : h.low.toInt ≤ v) (last : v ≤ h.high.toInt) :
    ∑ index ∈ Finset.range h.buckets, h.part v index * h.count index =
      h.countedBefore (h.bucketOf v) + h.part v (h.bucketOf v) * h.count (h.bucketOf v) := by
  obtain ⟨start, stop⟩ := (Nat.floor_eq_iff (cut.position_nonneg first)).1
    (cut.bucketOf_eq first last).symm
  have inside : h.bucketOf v + 1 ≤ h.buckets := bucketOf_lt cut.some v
  have rest : ∀ index ∈ Finset.range h.buckets, index ∉ Finset.range (h.bucketOf v + 1) →
      h.part v index * h.count index = 0 := by
    intro index _ behind
    rw [Finset.mem_range, not_lt] at behind
    have ahead : (h.bucketOf v : ℚ) + 1 ≤ index := by exact_mod_cast behind
    rw [part_eq_zero (stop.le.trans ahead), zero_mul]
  have whole : ∀ index ∈ Finset.range (h.bucketOf v),
      h.part v index * h.count index = (h.count index : ℚ) := by
    intro index early
    have behind : (index : ℚ) + 1 ≤ h.bucketOf v := by exact_mod_cast Finset.mem_range.1 early
    rw [part_eq_one (behind.trans start), one_mul]
  rw [← Finset.sum_subset (Finset.range_subset_range.2 inside) rest, Finset.sum_range_succ,
    Finset.sum_congr rfl whole, countedBefore_eq_sum, Nat.cast_sum]

/-- What lies on the left of `v` in a bucket, in widths of a bucket. -/
theorem Cut.part_eq (index : Nat) :
    h.part v index =
      Measure.clamp (((v : ℚ) - (h.low.toInt + index * h.width)) / h.width) := by
  have pos := cut.width_pos.ne'
  refine congrArg Measure.clamp ?_
  unfold position
  field_simp
  ring

end

/-- **The expected number** of values below `v`: each bucket counts by the part of it that lies
below `v`, whether `v` lies in the range or not. -/
theorem expectedBelow_eq_sum (cut : h.Cut) (tallied : h.Tallied vs) (v : Int) :
    h.expectedBelow v = ∑ index ∈ Finset.range h.buckets, h.part v index * h.count index := by
  unfold expectedBelow
  by_cases before : v ≤ h.low.toInt
  · have none : ∀ index ∈ Finset.range h.buckets, h.part v index * h.count index = 0 := by
      intro index _
      have start := cut.position_le_zero before
      rw [part_eq_zero (start.trans (Nat.cast_nonneg index)), zero_mul]
    rw [if_pos before, Finset.sum_eq_zero none]
    exact Int.cast_zero
  by_cases past : h.high.toInt < v
  · have whole : ∀ index ∈ Finset.range h.buckets,
        h.part v index * h.count index = (h.count index : ℚ) := by
      intro index inside
      have next : (index : ℚ) + 1 ≤ h.buckets := by exact_mod_cast Finset.mem_range.1 inside
      rw [part_eq_one (next.trans (cut.buckets_le_position past)), one_mul]
    rw [if_neg before, if_pos past, Finset.sum_congr rfl whole, tallied.sum_count]
    rfl
  · have first := (not_le.1 before).le
    have last := not_lt.1 past
    rw [if_neg before, if_neg past, cut.sum_parts first last, cut.part_eq]
    rfl

section

variable (cut : h.Cut) (tallied : h.Tallied vs)

include cut tallied

theorem expectedBelow_mono (le : v ≤ w) : h.expectedBelow v ≤ h.expectedBelow w := by
  rw [expectedBelow_eq_sum cut tallied, expectedBelow_eq_sum cut tallied]
  refine Finset.sum_le_sum fun index _ => ?_
  exact mul_le_mul_of_nonneg_right (cut.part_mono le index) (Nat.cast_nonneg _)

theorem expectedBelow_nonneg (v : Int) : 0 ≤ h.expectedBelow v := by
  rw [expectedBelow_eq_sum cut tallied]
  refine Finset.sum_nonneg fun index _ => ?_
  exact mul_nonneg (h.part_nonneg v index) (Nat.cast_nonneg _)

theorem expectedBelow_le_total (v : Int) : h.expectedBelow v ≤ h.total := by
  rw [expectedBelow_eq_sum cut tallied, ← tallied.sum_count]
  refine Finset.sum_le_sum fun index _ => ?_
  exact mul_le_of_le_one_left (Nat.cast_nonneg _) (h.part_le_one v index)

end

theorem expectedBelow_low (h : Histogram ℚ) : h.expectedBelow h.low.toInt = 0 := by
  rw [expectedBelow, if_pos le_rfl]
  exact Int.cast_zero

theorem Cut.expectedBelow_past_high (cut : h.Cut) : h.expectedBelow (h.high.toInt + 1) = h.total := by
  have ordered := cut.ordered
  rw [expectedBelow, if_neg (by omega), if_pos (by omega)]
  rfl

/-! ## Estimates -/

/-- The expected fraction of the values below `v`. -/
def below (h : Histogram ℚ) (v : Int) : ℚ := h.expectedBelow v / h.total

/-- The expected fraction of the values that compare so with `v`, from the fractions below `v` and
below the next number. -/
def fraction (h : Histogram ℚ) (op : Comparison) (v : Int) : ℚ :=
  match op with
  | .lt => h.below v
  | .le => h.below (v + 1)
  | .gt => 1 - h.below (v + 1)
  | .ge => 1 - h.below v
  | .eq | .like => h.below (v + 1) - h.below v
  | .ne => 1 - (h.below (v + 1) - h.below v)

section

variable (cut : h.Cut) (tallied : h.Tallied vs) (filled : vs ≠ [])

include tallied filled

theorem Tallied.total_pos : (0 : ℚ) < h.total := by
  rw [tallied.total]
  exact_mod_cast List.length_pos_of_ne_nil filled

include cut

theorem below_mono (le : v ≤ w) : h.below v ≤ h.below w :=
  div_le_div_of_nonneg_right (expectedBelow_mono cut tallied le) (tallied.total_pos filled).le

theorem below_nonneg (v : Int) : 0 ≤ h.below v :=
  div_nonneg (expectedBelow_nonneg cut tallied v) (tallied.total_pos filled).le

theorem below_le_one (v : Int) : h.below v ≤ 1 := by
  unfold below
  rw [div_le_one (tallied.total_pos filled)]
  exact expectedBelow_le_total cut tallied v

theorem fraction_mem (op : Comparison) (v : Int) : 0 ≤ h.fraction op v ∧ h.fraction op v ≤ 1 := by
  have step : h.below v ≤ h.below (v + 1) := below_mono cut tallied filled (Int.le_add_one le_rfl)
  have nonneg := below_nonneg cut tallied filled v
  have atMost := below_le_one cut tallied filled (v + 1)
  cases op <;> constructor <;> simp only [fraction] <;> linarith

/-- **An estimate** is that fraction: it never has to be moved into the interval from zero to
one. -/
theorem estimate_eq (op : Comparison) (v : Int32) : h.estimate op v = h.fraction op v.toInt := by
  obtain ⟨nonneg, atMost⟩ := fraction_mem cut tallied filled op v.toInt
  have some : h.total ≠ 0 := by exact_mod_cast (tallied.total_pos filled).ne'
  have one : (Measure.ofInt 1 : ℚ) = 1 := Int.cast_one
  rw [← Measure.clamp_of_mem nonneg atMost, estimate, if_neg some]
  simp only [one]
  cases op <;> rfl

/-- The estimates for equality share out the whole among the numbers of the range. -/
theorem sum_estimate_eq :
    ∑ k ∈ Finset.Icc h.low.toInt h.high.toInt, h.estimate .eq (Int32.ofInt k) = 1 := by
  have steps : ∀ k ∈ Finset.Icc h.low.toInt h.high.toInt,
      h.estimate .eq (Int32.ofInt k) = h.below (k + 1) - h.below k := by
    intro k inside
    obtain ⟨first, last⟩ := Finset.mem_Icc.1 inside
    have least := h.low.le_toInt
    have greatest := h.high.toInt_lt
    rw [estimate_eq cut tallied filled, fraction, Int32.toInt_ofInt_of_le (by omega) (by omega)]
  rw [Finset.sum_congr rfl steps, sum_Icc_sub h.below cut.ordered, below, below,
    cut.expectedBelow_past_high, expectedBelow_low, zero_div, sub_zero]
  exact div_self (tallied.total_pos filled).ne'

end

/-! ## One bucket for every integer -/

/-- How many of the values, moved into the range, compare so with `v`. -/
def matching (h : Histogram ℚ) (vs : List Int32) (op : Comparison) (v : Int32) : Nat :=
  vs.countP fun x => (Value.int (h.clampValue x)).satisfies op (.int v)

theorem matching_lt (h : Histogram ℚ) (vs : List Int32) (v : Int32) :
    h.matching vs .lt v = vs.countP fun x => (h.clampValue x).toInt < v.toInt := by
  refine List.countP_congr fun x _ => ?_
  rw [Value.satisfies_lt_iff, Value.below_int_iff, decide_eq_true_eq]

theorem matching_le (h : Histogram ℚ) (vs : List Int32) (v : Int32) :
    h.matching vs .le v = vs.countP fun x => (h.clampValue x).toInt < v.toInt + 1 := by
  refine List.countP_congr fun x _ => ?_
  rw [Value.satisfies_or (a := .lt) (b := .eq) (c := .le) nofun nofun nofun (by decide), Bool.or_eq_true,
    Value.satisfies_lt_iff, Value.satisfies_eq_iff, Value.below_int_iff, Value.int.injEq,
    ← Int32.toInt_inj, decide_eq_true_eq]
  omega

theorem matching_like (h : Histogram ℚ) (vs : List Int32) (v : Int32) :
    h.matching vs .like v = h.matching vs .eq v := by
  refine List.countP_congr fun x _ => ?_
  rw [Value.satisfies_eq_iff]
  simp [Value.satisfies]

/-- A value satisfies either a comparison or its opposite. -/
theorem matching_opposite (h : Histogram ℚ) (vs : List Int32) (v : Int32) {a b : Comparison}
    (plain : a ≠ .like) (plain' : b ≠ .like) (opposite : ∀ o, b.admits o = !a.admits o) :
    h.matching vs a v + h.matching vs b v = vs.length := by
  rw [List.length_eq_countP_add_countP fun x =>
    (Value.int (h.clampValue x)).satisfies a (.int v)]
  refine congrArg (_ + ·) (List.countP_congr fun x _ => ?_)
  rw [Value.satisfies_opposite plain plain' opposite]
  simp [Value.type]

/-- A value is at most `v` if it is below `v` or `v` itself, and never both. -/
theorem matching_le_splits (h : Histogram ℚ) (vs : List Int32) (v : Int32) :
    h.matching vs .le v = h.matching vs .lt v + h.matching vs .eq v := by
  rw [matching_lt, matching_le]
  unfold matching
  induction vs with
  | nil => rfl
  | cons x vs ih =>
      have same : (Value.int (h.clampValue x)).satisfies .eq (.int v) = true ↔
          (h.clampValue x).toInt = v.toInt := by
        rw [Value.satisfies_eq_iff, Value.int.injEq, Int32.toInt_inj]
      simp only [List.countP_cons, ih, same, decide_eq_true_eq]
      split_ifs <;> omega

section

variable (cut : h.Cut) (unit : h.buckets = rangeSize h.low h.high)

include cut unit

theorem Cut.width_eq_one : h.width = 1 := by
  have some : (h.buckets : ℚ) ≠ 0 := by exact_mod_cast cut.some.ne'
  have range : (h.buckets : ℚ) = h.high.toInt - h.low.toInt + 1 := by
    rw [unit, cast_rangeSize cut.ordered]
  exact (mul_eq_right₀ some).1 (cut.width.trans range.symm)

/-- Of a bucket with one integer in it, all or nothing lies below `v`. -/
theorem Cut.part_bin (v : Int) (x : Int32) :
    h.part v (h.bin x) = if (h.clampValue x).toInt < v then 1 else 0 := by
  obtain ⟨first, last⟩ := clampValue_mem cut.ordered x
  have width := cut.width_eq_one unit
  have place : ∀ w, h.position w = ((w - h.low.toInt : Int) : ℚ) := by
    intro w
    rw [position, width, div_one, Int.cast_sub]
  have bin : ((h.bin x : Nat) : Int) = (h.clampValue x).toInt - h.low.toInt := by
    rw [bin, cut.bucketOf_eq first last, place, ← Int.toNat_of_nonneg (sub_nonneg.2 first),
      Int.cast_natCast, Nat.floor_natCast]
  have bin' : (h.bin x : ℚ) = (h.clampValue x).toInt - h.low.toInt := by
    exact_mod_cast congrArg (Int.cast : Int → ℚ) bin
  split_ifs with less
  · have next : ((h.clampValue x).toInt : ℚ) + 1 ≤ v := by exact_mod_cast less
    refine part_eq_one ?_
    rw [place, bin', Int.cast_sub]
    linarith
  · have least : (v : ℚ) ≤ (h.clampValue x).toInt := by exact_mod_cast not_lt.1 less
    refine part_eq_zero ?_
    rw [place, bin', Int.cast_sub]
    linarith

/-- **The expected number** is then the number of values below `v`. -/
theorem expectedBelow_unit (tallied : h.Tallied vs) (v : Int) :
    h.expectedBelow v = (vs.countP fun x => (h.clampValue x).toInt < v : Nat) := by
  rw [expectedBelow_eq_sum cut tallied, tallied.sum_counts]
  simp only [cut.part_bin unit]
  exact sum_map_ite _ vs

/-- **The estimates** are then fractions of the values. -/
theorem estimate_unit (tallied : h.Tallied vs) (filled : vs ≠ []) (op : Comparison) (v : Int32) :
    h.estimate op v = h.matching vs op v / vs.length := by
  have total : (vs.length : ℚ) ≠ 0 := by
    exact_mod_cast (List.length_pos_of_ne_nil filled).ne'
  have lt : h.below v.toInt = h.matching vs .lt v / vs.length := by
    rw [below, expectedBelow_unit cut unit tallied, matching_lt, tallied.total]
  have le : h.below (v.toInt + 1) = h.matching vs .le v / vs.length := by
    rw [below, expectedBelow_unit cut unit tallied, matching_le, tallied.total]
  have lt_ge : (h.matching vs .lt v : ℚ) + h.matching vs .ge v = vs.length := by
    exact_mod_cast h.matching_opposite vs v (a := .lt) (b := .ge) nofun nofun fun _ => rfl
  have le_gt : (h.matching vs .le v : ℚ) + h.matching vs .gt v = vs.length := by
    exact_mod_cast h.matching_opposite vs v (a := .le) (b := .gt) nofun nofun (by decide)
  have eq_ne : (h.matching vs .eq v : ℚ) + h.matching vs .ne v = vs.length := by
    exact_mod_cast h.matching_opposite vs v (a := .eq) (b := .ne) nofun nofun fun _ => rfl
  have splits : (h.matching vs .le v : ℚ) = h.matching vs .lt v + h.matching vs .eq v := by
    exact_mod_cast h.matching_le_splits vs v
  rw [estimate_eq cut tallied filled, eq_div_iff total]
  cases op <;> simp only [fraction, lt, le, matching_like, sub_mul, one_mul,
    div_mul_cancel₀ _ total] <;> linarith

end

/-! ## The laws of the estimates -/

/-- What the estimates of a histogram over these values have in common with the fractions that they
stand for. -/
structure Coherent (h : Histogram ℚ) (vs : List Int32) : Prop where
  lt_mono : ∀ v w, v ≤ w → h.estimate .lt v ≤ h.estimate .lt w
  le_mono : ∀ v w, v ≤ w → h.estimate .le v ≤ h.estimate .le w
  within : ∀ op v, 0 ≤ h.estimate op v ∧ h.estimate op v ≤ 1
  lt_ge : ∀ v, h.estimate .lt v + h.estimate .ge v = 1
  le_gt : ∀ v, h.estimate .le v + h.estimate .gt v = 1
  eq_ne : ∀ v, h.estimate .eq v + h.estimate .ne v = 1
  le_splits : ∀ v, h.estimate .le v = h.estimate .lt v + h.estimate .eq v
  sum_eq : ∑ k ∈ Finset.Icc h.low.toInt h.high.toInt, h.estimate .eq (Int32.ofInt k) = 1
  like_eq : ∀ v, h.estimate .like v = h.estimate .eq v
  precise : h.buckets = rangeSize h.low h.high →
    ∀ op v, h.estimate op v = h.matching vs op v / vs.length

theorem coherent (cut : h.Cut) (tallied : h.Tallied vs) (filled : vs ≠ []) : h.Coherent vs := by
  have laws := estimate_eq cut tallied filled
  refine ⟨fun v w le => ?_, fun v w le => ?_, fun op v => ?_, fun v => ?_, fun v => ?_, fun v => ?_,
    fun v => ?_, sum_estimate_eq cut tallied filled, fun v => ?_, fun unit op v => ?_⟩
  · rw [laws, laws]
    exact below_mono cut tallied filled (Int32.le_iff_toInt_le.1 le)
  · rw [laws, laws]
    exact below_mono cut tallied filled (Int.add_le_add_right (Int32.le_iff_toInt_le.1 le) 1)
  · rw [laws]
    exact fraction_mem cut tallied filled op v.toInt
  · simp [laws, fraction]
  · simp [laws, fraction]
  · simp [laws, fraction]
  · simp [laws, fraction]
  · simp [laws, fraction]
  · exact estimate_unit cut unit tallied filled op v

theorem cut_new (buckets : Nat) (a b : Int32) : (new buckets a b : Histogram ℚ).Cut := by
  have ordered := low_le_high (F := ℚ) buckets a b
  have some := buckets_new_pos (F := ℚ) buckets a b
  have some' : ((new buckets a b : Histogram ℚ).buckets : ℚ) ≠ 0 := by exact_mod_cast some.ne'
  have width : (new buckets a b : Histogram ℚ).width =
      (rangeSize (new buckets a b : Histogram ℚ).low (new buckets a b : Histogram ℚ).high : Nat) /
        (new buckets a b : Histogram ℚ).buckets := by
    rw [buckets_new]
    rfl
  refine ⟨some, ordered, ?_⟩
  rw [width, div_mul_cancel₀ _ some', cast_rangeSize ordered]

/-- The values that are added leave the cut as it is. -/
theorem Cut.addAll (cut : h.Cut) (vs : List Int32) : (h.addAll vs).Cut := by
  obtain ⟨low, high, width, size⟩ := h.addAll_cut vs
  refine ⟨?_, ?_, ?_⟩
  · rw [size]
    exact cut.some
  · rw [low, high]
    exact cut.ordered
  · rw [low, high, width, size]
    exact cut.width

/-- **The estimates of a histogram** are coherent, however many buckets were asked for, whatever its
bounds, and whichever values were added. -/
theorem coherent_new (buckets : Nat) (a b : Int32) (vs : List Int32) (filled : vs ≠ []) :
    let h := (new buckets a b : Histogram ℚ).addAll vs
    h.low = min a b ∧ h.high = max a b ∧
      h.buckets = bucketCount buckets (rangeSize (min a b) (max a b)) ∧ h.Coherent vs := by
  obtain ⟨low, high, -, size⟩ := (new buckets a b : Histogram ℚ).addAll_cut vs
  refine ⟨low, high, size.trans (buckets_new buckets a b), ?_⟩
  exact coherent ((cut_new buckets a b).addAll vs) (tallied_new buckets a b vs) filled

/-- Bounds from ten down to one, a bucket for each number between them, and two values outside. -/
theorem coherent_new_outside :
    let h := (new 100 10 1 : Histogram ℚ).addAll [0, 3, 3, 12]
    h.buckets = 10 ∧ h.estimate .le 3 = 3 / 4 ∧ h.estimate .eq 3 = 1 / 2 ∧
      h.estimate .gt 9 = 1 / 4 := by
  intro h
  obtain ⟨low, high, size, coherent⟩ := coherent_new 100 10 1 [0, 3, 3, 12] (by decide)
  have unit : h.buckets = rangeSize h.low h.high := by
    rw [low, high]
    exact size
  have atMost : h.matching [0, 3, 3, 12] .le 3 = 3 := rfl
  have equal : h.matching [0, 3, 3, 12] .eq 3 = 2 := rfl
  have above : h.matching [0, 3, 3, 12] .gt 9 = 1 := rfl
  have precise := coherent.precise unit
  refine ⟨size, ?_, ?_, ?_⟩
  · rw [precise, atMost]
    norm_num
  · rw [precise, equal]
    norm_num
  · rw [precise, above]
    norm_num

end Histogram

end RowStore
