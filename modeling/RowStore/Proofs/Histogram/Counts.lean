/-
# RowStore.Proofs.Histogram.Counts -- what the buckets of a histogram have counted

Whatever numbers a histogram computes with, every value goes into one bucket and into the total:
the bucket `bin` of the value, which is one of the buckets because `bucketOf` stops at the last
one.  `Tallied` says so of a histogram and the values recorded in it.  Each value that is added
keeps this (`Tallied.add`), so it holds after any number of them (`tallied_new`).

A sum over the buckets, each weighted with its count, is therefore a sum over the values
(`Tallied.sum_counts`).
-/
import Mathlib.Algebra.BigOperators.Ring.Finset
import RowStore.Histogram

namespace RowStore

set_option autoImplicit false

namespace Histogram

variable {F : Type} [Measure F] {h : Histogram F} {vs : List Int32} {v : Int32}

/-- The bucket into which a value goes. -/
def bin (h : Histogram F) (v : Int32) : Nat := h.bucketOf (h.clampValue v).toInt

/-- The number of values counted in a bucket. -/
def count (h : Histogram F) (index : Nat) : Nat := h.counts.getD index 0

/-- These values are the ones that the histogram has counted. -/
structure Tallied (h : Histogram F) (vs : List Int32) : Prop where
  some : 0 < h.buckets
  count : ∀ index, h.count index = vs.countP fun v => h.bin v = index
  total : h.total = vs.length

/-! ## The cut of the range -/

theorem buckets_add (h : Histogram F) (v : Int32) : (h.add v).buckets = h.buckets :=
  Array.size_modify

theorem bucketOf_add (h : Histogram F) (v : Int32) : (h.add v).bucketOf = h.bucketOf := by
  funext w
  have size := h.buckets_add v
  unfold buckets at size
  simp only [bucketOf, size]
  rfl

theorem bin_add (h : Histogram F) (v : Int32) : (h.add v).bin = h.bin := by
  funext w
  rw [bin, bin, bucketOf_add]
  rfl

/-- What the values that are added leave as it is: the range, and how it is cut. -/
theorem addAll_cut (h : Histogram F) (vs : List Int32) :
    (h.addAll vs).low = h.low ∧ (h.addAll vs).high = h.high ∧ (h.addAll vs).width = h.width ∧
      (h.addAll vs).buckets = h.buckets := by
  unfold addAll
  induction vs generalizing h with
  | nil => exact ⟨rfl, rfl, rfl, rfl⟩
  | cons v vs ih =>
      obtain ⟨low, high, width, size⟩ := ih (h.add v)
      exact ⟨low, high, width, size.trans (h.buckets_add v)⟩

theorem bucketOf_lt (some : 0 < h.buckets) (v : Int) : h.bucketOf v < h.buckets := by
  unfold bucketOf buckets at *
  exact Nat.lt_of_le_of_lt (Nat.min_le_right _ _) (Nat.sub_lt some Nat.one_pos)

omit [Measure F] in
theorem clampValue_mem (ordered : h.low.toInt ≤ h.high.toInt) (v : Int32) :
    h.low.toInt ≤ (h.clampValue v).toInt ∧ (h.clampValue v).toInt ≤ h.high.toInt := by
  simp only [clampValue, min, max, Int32.le_iff_toInt_le]
  split_ifs <;> omega

/-! ## Adding values -/

theorem count_add (some : 0 < h.buckets) (v : Int32) (index : Nat) :
    (h.add v).count index = h.count index + if h.bin v = index then 1 else 0 := by
  have inside : h.bin v < h.counts.size := bucketOf_lt some _
  show (h.counts.modify (h.bin v) (· + 1)).getD index 0 = h.counts.getD index 0 + _
  simp only [Array.getD_eq_getD_getElem?, Array.getElem?_modify]
  by_cases here : h.bin v = index
  · subst here
    simp [inside]
  · simp [here]

theorem Tallied.add (tallied : h.Tallied vs) (v : Int32) : (h.add v).Tallied (vs ++ [v]) := by
  refine ⟨?_, fun index => ?_, ?_⟩
  · rw [buckets_add]
    exact tallied.some
  · rw [count_add tallied.some, tallied.count, bin_add, List.countP_append, List.countP_singleton]
    simp
  · rw [List.length_append, ← tallied.total]
    rfl

theorem Tallied.addAll (tallied : h.Tallied vs) (more : List Int32) :
    (h.addAll more).Tallied (vs ++ more) := by
  unfold Histogram.addAll
  induction more generalizing h vs with
  | nil => rwa [List.append_nil]
  | cons v more ih =>
      rw [← List.singleton_append, ← List.append_assoc]
      exact ih (tallied.add v)

/-! ## New histograms -/

theorem low_le_high (buckets : Nat) (a b : Int32) :
    (new buckets a b : Histogram F).low.toInt ≤ (new buckets a b : Histogram F).high.toInt := by
  simp only [new, min, max, Int32.le_iff_toInt_le]
  split <;> omega

theorem bucketCount_pos {wanted range : Nat} (some : 0 < range) : 0 < bucketCount wanted range := by
  unfold bucketCount
  omega

theorem rangeSize_new (buckets : Nat) (a b : Int32) :
    0 < rangeSize (new buckets a b : Histogram F).low (new buckets a b : Histogram F).high := by
  have ordered := low_le_high (F := F) buckets a b
  unfold rangeSize
  omega

theorem buckets_new (buckets : Nat) (a b : Int32) :
    (new buckets a b : Histogram F).buckets =
      bucketCount buckets
        (rangeSize (new buckets a b : Histogram F).low (new buckets a b : Histogram F).high) :=
  Array.size_replicate

theorem buckets_new_pos (buckets : Nat) (a b : Int32) :
    0 < (new buckets a b : Histogram F).buckets := by
  rw [buckets_new]
  exact bucketCount_pos (rangeSize_new buckets a b)

/-- **The values added** to a new histogram are the ones it has counted. -/
theorem tallied_new (buckets : Nat) (a b : Int32) (vs : List Int32) :
    ((new buckets a b : Histogram F).addAll vs).Tallied vs := by
  have fresh : (new buckets a b : Histogram F).Tallied [] := by
    refine ⟨buckets_new_pos buckets a b, fun index => ?_, rfl⟩
    simp only [count, new, Array.getD_eq_getD_getElem?, Array.getElem?_replicate]
    split <;> rfl
  exact fresh.addAll vs

/-! ## Sums over the buckets -/

omit [Measure F] in
theorem countedBefore_eq_sum (h : Histogram F) (index : Nat) :
    h.countedBefore index = ∑ before ∈ Finset.range index, h.count before := by
  have summed : ∀ n, h.countedBefore n = (h.counts.toList.take n).sum := by
    intro n
    rw [countedBefore, ← Array.foldl_toList, List.sum_eq_foldl]
    simp
  induction index with
  | zero => simp [summed]
  | succ index ih =>
      rw [Finset.sum_range_succ, ← ih, summed, summed, count]
      by_cases inside : index < h.counts.size
      · rw [List.sum_take_succ _ _ (by simpa using inside)]
        simp [Array.getD_eq_getD_getElem?, inside]
      · have all := not_lt.1 inside
        rw [List.take_of_length_le (by simpa using all.trans (Nat.le_succ _)),
          List.take_of_length_le (by simpa using all)]
        simp [Array.getD_eq_getD_getElem?, all]

/-- A sum over classes, weighted with the numbers of their members, is one over the members. -/
theorem sum_countP {R : Type} [Semiring R] (weight : Nat → R) (of : Int32 → Nat) {n : Nat}
    (inside : ∀ v, of v < n) (vs : List Int32) :
    ∑ index ∈ Finset.range n, weight index * (vs.countP fun v => of v = index : Nat) =
      (vs.map fun v => weight (of v)).sum := by
  induction vs with
  | nil => simp
  | cons v vs ih =>
      have own : ∑ index ∈ Finset.range n, weight index * (if of v = index then 1 else 0) =
          weight (of v) := by
        simp [inside v]
      simp only [List.countP_cons, Nat.cast_add, mul_add, Finset.sum_add_distrib, ih, List.map_cons,
        List.sum_cons, decide_eq_true_eq, Nat.cast_ite, Nat.cast_one, Nat.cast_zero, own]
      rw [add_comm]

/-- **A sum over the buckets** of a weight for each value counted is one over the values. -/
theorem Tallied.sum_counts {R : Type} [Semiring R] (tallied : h.Tallied vs) (weight : Nat → R) :
    ∑ index ∈ Finset.range h.buckets, weight index * (h.count index : R) =
      (vs.map fun v => weight (h.bin v)).sum := by
  simp only [tallied.count]
  exact sum_countP weight h.bin (fun v => bucketOf_lt tallied.some _) vs

theorem Tallied.sum_count {R : Type} [Semiring R] (tallied : h.Tallied vs) :
    ∑ index ∈ Finset.range h.buckets, (h.count index : R) = h.total := by
  have ones := tallied.sum_counts fun _ => (1 : R)
  simpa [tallied.total] using ones

end Histogram

end RowStore
