/-
# RowStore.Decimal.Fixed -- numbers with a fixed number of decimal places

The value of a double is a whole number times a power of two.  It is scaled by the
power of ten and rounded to the nearest whole number in exact arithmetic; a value
half-way between two goes to the even one.  `nearest_le` and `le_nearest` say that the
result is at most half a unit away.  The sign is written whenever the sign bit is set,
so a negative zero keeps it.
-/

namespace RowStore

set_option autoImplicit false

namespace Decimal

/-- The whole number nearest to a quotient, the even one of two. -/
def nearest (num den : Nat) : Nat :=
  let below := num / den
  let rest := num % den
  if 2 * rest < den then below
  else if den < 2 * rest then below + 1
  else if below % 2 = 0 then below
  else below + 1

theorem nearest_le {num den : Nat} (positive : 0 < den) :
    2 * (nearest num den * den) ≤ 2 * num + den := by
  have split := Nat.div_add_mod' num den
  have small := Nat.mod_lt num positive
  unfold nearest
  simp only
  repeat' split
  all_goals (try rw [Nat.add_mul, Nat.one_mul]); omega

theorem le_nearest {num den : Nat} (positive : 0 < den) :
    2 * num ≤ 2 * (nearest num den * den) + den := by
  have split := Nat.div_add_mod' num den
  have small := Nat.mod_lt num positive
  unfold nearest
  simp only
  repeat' split
  all_goals (try rw [Nat.add_mul, Nat.one_mul]); omega

/-- A whole number of units of the last place, written with its point. -/
def placed (places units : Nat) : String :=
  let digits := Nat.toDigits 10 units
  let padded := List.replicate (places + 1 - digits.length) '0' ++ digits
  let whole := padded.length - places
  if places = 0 then String.ofList padded
  else String.ofList (padded.take whole) ++ "." ++ String.ofList (padded.drop whole)

/-- A double with a fixed number of places. -/
def fixed (places : Nat) (x : Float) : String :=
  let bits := x.toBits.toNat
  let exponent := (bits >>> 52) % 2048
  let fraction := bits % (1 <<< 52)
  let sign := if bits >>> 63 = 1 then "-" else ""
  if exponent = 2047 then
    if fraction = 0 then sign ++ "inf" else "NaN"
  else
    let significand := if exponent = 0 then fraction else fraction + (1 <<< 52)
    let power : Int := (max exponent 1 : Nat) - 1075
    let units := nearest ((significand <<< power.toNat) * Nat.pow 10 places) (1 <<< (-power).toNat)
    sign ++ placed places units

end Decimal

end RowStore
