/-
# RowStore.Value -- values, their types and their comparisons

A value is a truth value, a 32-bit integer or a text.  Values of one type are
ordered (`false` before `true`, texts by code point); values of two types are
not comparable, so every comparison between them is false.  `like` asks on texts
for a contiguous occurrence (`occursIn_iff`) and elsewhere for equality.
-/

namespace RowStore

set_option autoImplicit false

/-- The longest text a row can store, in bytes of its UTF-8 form. -/
def textLimit : Nat := 128

inductive DataType where
  | boolean
  | int
  | varchar
deriving DecidableEq, Repr, Inhabited

namespace DataType

/-- The bytes that a value of the type takes in a row; a text carries its length. -/
def width : DataType → Nat
  | .boolean => 1
  | .int => 4
  | .varchar => 4 + textLimit

def name : DataType → String
  | .boolean => "BOOLEAN"
  | .int => "INT"
  | .varchar => "VARCHAR"

/-- The type's long name, used where a whole list of types is shown. -/
def longName : DataType → String
  | .boolean => "Boolean"
  | .int => "Int32"
  | .varchar => "Varchar"

/-- The bytes that one value of each type takes, one after the other. -/
def totalWidth : List DataType → Nat
  | [] => 0
  | t :: ts => t.width + totalWidth ts

theorem width_pos (t : DataType) : 0 < t.width := by cases t <;> decide

end DataType

inductive Value where
  | bool (b : Bool)
  | int (n : Int32)
  | text (s : String)
deriving DecidableEq, Repr, Inhabited

/-- The comparisons a predicate can make. -/
inductive Comparison where
  | eq
  | ne
  | gt
  | ge
  | lt
  | le
  | like
deriving DecidableEq, Repr, Inhabited

namespace Comparison

def all : List Comparison := [.eq, .ne, .gt, .ge, .lt, .le, .like]

def name : Comparison → String
  | .eq => "="
  | .ne => "<>"
  | .gt => ">"
  | .ge => ">="
  | .lt => "<"
  | .le => "<="
  | .like => "LIKE"

/-- Whether two comparable values in this order satisfy the comparison. -/
def admits : Comparison → Ordering → Bool
  | .eq, o => o.isEq
  | .ne, o => !o.isEq
  | .gt, o => o.isGT
  | .ge, o => !o.isLT
  | .lt, o => o.isLT
  | .le, o => !o.isGT
  | .like, o => o.isEq

end Comparison

/-- Whether `part` stands somewhere in `whole` without a gap. -/
def occursIn (part : List Char) : List Char → Bool
  | [] => part.isEmpty
  | c :: rest => part.isPrefixOf (c :: rest) || occursIn part rest

theorem occursIn_iff {part whole : List Char} : occursIn part whole = true ↔ part <:+: whole := by
  induction whole with
  | nil => simp [occursIn]
  | cons c rest ih => simp [occursIn, ih, List.infix_cons_iff]

namespace Value

def type : Value → DataType
  | .bool _ => .boolean
  | .int _ => .int
  | .text _ => .varchar

def int? : Value → Option Int32
  | .int n => some n
  | _ => none

/-- How a value is shown. -/
def render : Value → String
  | .bool true => "true"
  | .bool false => "false"
  | .int n => toString n.toInt
  | .text s => s

/-- The order of two values of one type. -/
def order? : Value → Value → Option Ordering
  | .bool a, .bool b => some (compare a b)
  | .int a, .int b => some (compare a b)
  | .text a, .text b => some (compare a b)
  | _, _ => none

/-- Whether `v op w` holds. -/
def satisfies (v : Value) (op : Comparison) (w : Value) : Bool :=
  match op, v, w with
  | .like, .text a, .text b => occursIn b.toList a.toList
  | .like, _, _ => v = w
  | op, _, _ =>
      match v.order? w with
      | some o => op.admits o
      | none => false

theorem order?_isSome_iff {v w : Value} : (v.order? w).isSome = true ↔ v.type = w.type := by
  cases v <;> cases w <;> simp [order?, type]

end Value

end RowStore
