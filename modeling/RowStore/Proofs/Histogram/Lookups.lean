/-
# RowStore.Proofs.Histogram.Lookups -- a histogram looks only into buckets that it has

The place of a bucket comes out of a division, and of what a division of doubles yields nothing is
assumed here.  `add` would pass over a bucket that is not there, and `expectedBelow` would read it as
empty.  The calls with a question mark do the same without that leniency: they have no answer where
the range is reversed, where they look into a bucket past the last one, or where they ask for more
buckets to sum up than there are.  The equivalences `add?_eq_some_iff` and
`expectedBelow?_eq_some_iff` say that this is the only difference.

A histogram with a range and a bucket is `Usable`, and stays so whatever is added.  As long as it is,
none of its calls refuses (`Usable.addAll?_eq_some`, `Usable.estimate?_eq_some`).
-/
import RowStore.Proofs.Histogram.Counts

namespace RowStore

set_option autoImplicit false

namespace Histogram

variable {F : Type} [Measure F] {h : Histogram F} {v : Int32}

/-! ## Calls that may refuse -/

/-- Record a value in its bucket, which has to be there. -/
def add? (h : Histogram F) (v : Int32) : Option (Histogram F) :=
  if h.low.toInt ≤ h.high.toInt then do
    let count ← h.counts[h.bin v]?
    return { h with
      counts := h.counts.setIfInBounds (h.bin v) (count + 1)
      total := h.total + 1 }
  else none

def addAll? (h : Histogram F) (vs : List Int32) : Option (Histogram F) := vs.foldlM add? h

/-- The number of values recorded in so many buckets, which all have to be there. -/
def countedBefore? (h : Histogram F) (index : Nat) : Option Nat :=
  if index ≤ h.buckets then some (h.countedBefore index) else none

/-- The expected number of recorded values below `v`, whose bucket has to be there. -/
def expectedBelow? (h : Histogram F) (v : Int) : Option F :=
  if v ≤ h.low.toInt then some (Measure.ofInt 0)
  else if h.high.toInt < v then some (Measure.ofInt h.total)
  else do
    let index := h.bucketOf v
    let left : F := Measure.ofInt h.low.toInt + Measure.ofInt index * h.width
    let part : F := Measure.clamp ((Measure.ofInt v - left) / h.width)
    let full ← h.countedBefore? index
    let own ← h.counts[index]?
    return Measure.ofInt full + part * Measure.ofInt own

/-- The estimate, if both of the numbers that it is made from can be had. -/
def estimate? (h : Histogram F) (op : Comparison) (v : Int32) : Option F :=
  if h.total = 0 then some (Measure.ofInt 0)
  else do
    let _ ← h.expectedBelow? v.toInt
    let _ ← h.expectedBelow? (v.toInt + 1)
    return h.estimate op v

omit [Measure F] in
theorem getElem?_eq_some_count {index : Nat} (inside : index < h.buckets) :
    h.counts[index]? = some (h.count index) := by
  have inside' : index < h.counts.size := inside
  simp [count, Array.getD_eq_getD_getElem?, inside']

omit [Measure F] in
theorem modify_counts {index : Nat} (inside : index < h.buckets) :
    h.counts.modify index (· + 1) = h.counts.setIfInBounds index (h.count index + 1) := by
  have inside' : index < h.counts.size := inside
  refine Array.ext_getElem? fun other => ?_
  rw [Array.getElem?_modify, Array.getElem?_setIfInBounds]
  split_ifs with same
  · subst same
    rw [getElem?_eq_some_count inside]
    rfl
  · rfl

/-- **A value is recorded** unless the range is reversed or its bucket is not there. -/
theorem add?_eq_some_iff {h' : Histogram F} :
    h.add? v = some h' ↔
      h.low.toInt ≤ h.high.toInt ∧ h.bin v < h.buckets ∧ h' = h.add v := by
  unfold add?
  by_cases ordered : h.low.toInt ≤ h.high.toInt
  · rw [if_pos ordered]
    rcases lt_or_ge (h.bin v) h.buckets with inside | past
    · have same : h.add v = { h with
          counts := h.counts.setIfInBounds (h.bin v) (h.count (h.bin v) + 1)
          total := h.total + 1 } := by
        rw [← modify_counts inside]
        rfl
      simp [getElem?_eq_some_count inside, ordered, inside, same, eq_comm]
    · have missing : h.counts[h.bin v]? = none := Array.getElem?_eq_none past
      simp [missing, past]
  · simp [ordered]

/-- **An expected number** is had unless it takes a bucket that is not there. -/
theorem expectedBelow?_eq_some_iff {w : Int} {x : F} :
    h.expectedBelow? w = some x ↔
      (h.low.toInt < w → w ≤ h.high.toInt → h.bucketOf w < h.buckets) ∧
        x = h.expectedBelow w := by
  unfold expectedBelow? expectedBelow
  by_cases before : w ≤ h.low.toInt
  · simp [before, eq_comm]
  by_cases past : h.high.toInt < w
  · simp [before, past, eq_comm]
  · rw [if_neg before, if_neg past, if_neg before, if_neg past]
    rcases lt_or_ge (h.bucketOf w) h.buckets with inside | outside
    · have own : h.counts.getD (h.bucketOf w) 0 = h.count (h.bucketOf w) := rfl
      simp [countedBefore?, getElem?_eq_some_count inside, inside, inside.le, own, eq_comm]
    · have missing : h.counts[h.bucketOf w]? = none := Array.getElem?_eq_none outside
      have first := not_le.1 before
      have last := not_lt.1 past
      simp [missing, first, last, outside]

/-! ## Usable histograms -/

/-- There is a range, and at least one bucket for it. -/
structure Usable (h : Histogram F) : Prop where
  nonempty : 0 < h.buckets
  ordered : h.low.toInt ≤ h.high.toInt

theorem usable_new (buckets : Nat) (a b : Int32) : (new buckets a b : Histogram F).Usable :=
  ⟨buckets_new_pos buckets a b, low_le_high buckets a b⟩

theorem Usable.add (usable : h.Usable) (v : Int32) : (h.add v).Usable := by
  refine ⟨?_, usable.ordered⟩
  rw [buckets_add]
  exact usable.nonempty

theorem Usable.add?_eq_some (usable : h.Usable) (v : Int32) : h.add? v = some (h.add v) :=
  add?_eq_some_iff.2 ⟨usable.ordered, bucketOf_lt usable.nonempty _, rfl⟩

/-- **No value is refused** on the way, and the histogram that has them all is usable again. -/
theorem Usable.addAll?_eq_some (usable : h.Usable) (vs : List Int32) :
    h.addAll? vs = some (h.addAll vs) ∧ (h.addAll vs).Usable := by
  unfold addAll? addAll
  induction vs generalizing h with
  | nil => exact ⟨rfl, usable⟩
  | cons v vs ih =>
      rw [List.foldlM_cons, usable.add?_eq_some]
      exact ih (usable.add v)

theorem Usable.expectedBelow?_eq_some (usable : h.Usable) (w : Int) :
    h.expectedBelow? w = some (h.expectedBelow w) :=
  expectedBelow?_eq_some_iff.2 ⟨fun _ _ => bucketOf_lt usable.nonempty w, rfl⟩

theorem Usable.estimate?_eq_some (usable : h.Usable) (op : Comparison) (v : Int32) :
    h.estimate? op v = some (h.estimate op v) := by
  unfold estimate?
  rw [usable.expectedBelow?_eq_some, usable.expectedBelow?_eq_some]
  by_cases empty : h.total = 0
  · rw [if_pos empty, estimate, if_pos empty]
  · rw [if_neg empty]
    rfl

/-! ## The numbers of buckets and of values -/

theorem rangeSize_min_max (a b : Int32) :
    rangeSize (min a b) (max a b) = (b.toInt - a.toInt).natAbs + 1 := by
  simp only [rangeSize, min, max, Int32.le_iff_toInt_le]
  split_ifs <;> omega

theorem buckets_addAll_new (buckets : Nat) (a b : Int32) (vs : List Int32) :
    ((new buckets a b : Histogram F).addAll vs).buckets =
      min (max buckets 1) ((b.toInt - a.toInt).natAbs + 1) := by
  obtain ⟨-, -, -, size⟩ := (new buckets a b : Histogram F).addAll_cut vs
  rw [size, buckets_new, bucketCount, ← rangeSize_min_max]
  rfl

omit [Measure F] in
theorem sum_counts_eq (h : Histogram F) :
    h.counts.sum = ∑ index ∈ Finset.range h.buckets, h.count index := by
  rw [← countedBefore_eq_sum, countedBefore, buckets, Array.sum_eq_foldl]
  simp

/-- **Every value is counted once**, however many buckets were asked for, whatever the bounds and the
values, and whatever the numbers yield that the buckets are found with.  No call asks for a bucket
that is not there, neither to add a value nor to estimate for any operand. -/
theorem counts_each_value (buckets : Nat) (a b : Int32) (vs : List Int32) :
    let h := (new buckets a b : Histogram F).addAll vs
    (new buckets a b : Histogram F).addAll? vs = some h ∧
      (∀ op v, h.estimate? op v = some (h.estimate op v)) ∧
        (∀ w : Int, h.bucketOf w < h.buckets) ∧
          h.buckets = min (max buckets 1) ((b.toInt - a.toInt).natAbs + 1) ∧
            h.counts.sum = h.total ∧ h.total = vs.length := by
  intro h
  obtain ⟨added, usable⟩ := (usable_new (F := F) buckets a b).addAll?_eq_some vs
  have tallied : h.Tallied vs := tallied_new buckets a b vs
  refine ⟨added, usable.estimate?_eq_some, bucketOf_lt usable.nonempty,
    buckets_addAll_new buckets a b vs, ?_, tallied.total⟩
  rw [sum_counts_eq]
  exact tallied.sum_count

/-- Three buckets for all integers, with the values at both ends and one in the middle. -/
example :
    ((new 3 2147483647 (-2147483648) : Histogram Float).addAll?
      [2147483647, 0, -2147483648, 2147483647]).map counts = some #[1, 1, 2] := rfl

end Histogram

end RowStore
