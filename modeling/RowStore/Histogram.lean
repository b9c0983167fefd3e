/-
# RowStore.Histogram -- how often the values of an integer column occur

A histogram cuts the inclusive range from `low` to `high` into buckets of one width
and counts the values that fall into each; values outside count toward the nearest
edge.  Within a bucket values are taken to be spread evenly.  `estimate` is the
expected fraction of the values that satisfy a comparison.

The arithmetic is a parameter, `Measure`: the store computes in doubles, and the same
definitions can be read over exact numbers.
-/
import RowStore.Value
import RowStore.Decimal.Fixed

namespace RowStore

set_option autoImplicit false

/-- The numbers that widths and fractions are computed in. -/
class Measure (F : Type) extends Add F, Sub F, Mul F, Div F where
  ofInt : Int → F
  /-- The whole part of a number, zero if it has none that counts. -/
  floor : F → Nat
  less : F → F → Bool

instance : Measure Float where
  ofInt := Float.ofInt
  floor x := x.toUInt64.toNat
  less x y := x < y

namespace Measure

variable {F : Type} [Measure F]

/-- A number moved into the interval from zero to one. -/
def clamp (x : F) : F :=
  let raised := if less x (ofInt 0) then ofInt 0 else x
  if less (ofInt 1) raised then ofInt 1 else raised

end Measure

structure Histogram (F : Type) where
  low : Int32
  high : Int32
  width : F
  counts : Array Nat
  total : Nat

namespace Histogram

variable {F : Type} [Measure F]

/-- How many integers lie between two bounds, both included. -/
def rangeSize (low high : Int32) : Nat := (high.toInt - low.toInt + 1).toNat

/-- At least one bucket, and at most one for every integer of the range. -/
def bucketCount (wanted range : Nat) : Nat := min (max wanted 1) range

/-- An empty histogram between two bounds, given in either order. -/
def new (buckets : Nat) (a b : Int32) : Histogram F :=
  let low := min a b
  let high := max a b
  let range := rangeSize low high
  let n := bucketCount buckets range
  ⟨low, high, Measure.ofInt range / Measure.ofInt n, Array.replicate n 0, 0⟩

def buckets (h : Histogram F) : Nat := h.counts.size

/-- The bucket that an offset from the low end falls into, the last one at most. -/
def bucketOf (h : Histogram F) (v : Int) : Nat :=
  let offset : F := Measure.ofInt (v - h.low.toInt)
  min (Measure.floor (offset / h.width)) (h.counts.size - 1)

/-- A value moved into the range. -/
def clampValue (h : Histogram F) (v : Int32) : Int32 := max h.low (min h.high v)

/-- Record a value. -/
def add (h : Histogram F) (v : Int32) : Histogram F :=
  { h with
    counts := h.counts.modify (h.bucketOf (h.clampValue v).toInt) (· + 1)
    total := h.total + 1 }

def addAll (h : Histogram F) (vs : List Int32) : Histogram F := vs.foldl add h

/-- The number of values recorded in the buckets before that one. -/
def countedBefore (h : Histogram F) (index : Nat) : Nat :=
  (h.counts.take index).foldl (· + ·) 0

/-- The expected number of recorded values below `v`: the full buckets before its
bucket, and the part of its bucket before it. -/
def expectedBelow (h : Histogram F) (v : Int) : F :=
  if v ≤ h.low.toInt then Measure.ofInt 0
  else if h.high.toInt < v then Measure.ofInt h.total
  else
    let index := h.bucketOf v
    let left : F := Measure.ofInt h.low.toInt + Measure.ofInt index * h.width
    let part : F := Measure.clamp ((Measure.ofInt v - left) / h.width)
    let full : F := Measure.ofInt (h.countedBefore index)
    full + part * Measure.ofInt (h.counts.getD index 0)

/-- The expected fraction of the recorded values `x` for which `x op v` holds. -/
def estimate (h : Histogram F) (op : Comparison) (v : Int32) : F :=
  if h.total = 0 then Measure.ofInt 0
  else
    let total : F := Measure.ofInt h.total
    let one : F := Measure.ofInt 1
    let below := h.expectedBelow v.toInt / total
    let upTo := h.expectedBelow (v.toInt + 1) / total
    Measure.clamp <|
      match op with
      | .lt => below
      | .le => upTo
      | .gt => one - upTo
      | .ge => one - below
      | .eq | .like => upTo - below
      | .ne => one - (upTo - below)

/-- The expected fraction for an equality with one of the recorded values; one if
there are none. -/
def meanEquality (h : Histogram F) : F :=
  if h.total = 0 then Measure.ofInt 1
  else
    let total : F := Measure.ofInt h.total
    let chance (count : Nat) : F :=
      let share : F := Measure.ofInt count / total
      share * share / h.width
    h.counts.foldl (fun sum count => sum + chance count) (Measure.ofInt 0)

/-- The buckets with their first integer and their count. -/
def text (h : Histogram Float) : String :=
  let bucketText := fun (entry : Nat × Nat) =>
    let start := Decimal.fixed 0
      (Float.ofInt h.low.toInt + Float.ofInt entry.2 * h.width).ceil
    s!" [{start}: {entry.1}]"
  let low := h.low.toInt
  let high := h.high.toInt
  s!"IntHistogram[{low}..={high}, {h.buckets} buckets, {h.total} values]:" ++
    String.join (h.counts.toList.zipIdx.map bucketText)

end Histogram

end RowStore
