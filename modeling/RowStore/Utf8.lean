/-
# RowStore.Utf8 -- texts as bytes, and where bytes fail to be a text

`bytes` is the stored form of a text and `decode` reads it back.  `decode`
accepts exactly the stored forms (`decode_eq_ok_iff`).  Bytes that are no text
are answered with the first `Defect`: the index at which the character that
cannot be read begins, and how many of its bytes were read before it broke off,
or no such number when the input ends inside a character that could go on.
-/

namespace RowStore

set_option autoImplicit false

namespace Utf8

/-- Where bytes stop being a text.  `length` is absent when the input ends
inside a character. -/
structure Defect where
  index : Nat
  length : Option Nat
deriving DecidableEq, Repr

def Defect.message (d : Defect) : String :=
  match d.length with
  | some n => s!"invalid utf-8 sequence of {n} bytes from index {d.index}"
  | none => s!"incomplete utf-8 byte sequence from index {d.index}"

/-- The stored form of a text. -/
def bytes (s : String) : List UInt8 := s.toUTF8.data.toList

/-- The ranges in which the bytes after a leading byte must lie, or `none` when
no character begins with that byte. -/
def continuations (lead : UInt8) : Option (List (UInt8 × UInt8)) :=
  let any : UInt8 × UInt8 := (0x80, 0xBF)
  if lead < 0x80 then some []
  else if lead < 0xC2 then none
  else if lead < 0xE0 then some [any]
  else if lead = 0xE0 then some [(0xA0, 0xBF), any]
  else if lead = 0xED then some [(0x80, 0x9F), any]
  else if lead < 0xF0 then some [any, any]
  else if lead = 0xF0 then some [(0x90, 0xBF), any, any]
  else if lead < 0xF4 then some [any, any, any]
  else if lead = 0xF4 then some [(0x80, 0x8F), any, any]
  else none

/-- The first defect.  `start` is where the character being read begins, `taken`
how many of its bytes were read and `expected` the ranges of those to come. -/
def firstDefect (start taken : Nat) (expected : List (UInt8 × UInt8)) :
    List UInt8 → Option Defect
  | [] => if expected.isEmpty then none else some ⟨start, none⟩
  | b :: rest =>
      match expected with
      | [] =>
          match continuations b with
          | some ranges => firstDefect (start + taken) 1 ranges rest
          | none => some ⟨start + taken, some 1⟩
      | (low, high) :: more =>
          if low ≤ b ∧ b ≤ high then firstDefect start (taken + 1) more rest
          else some ⟨start, some taken⟩

/-- Read a stored form back. -/
def decode (bs : List UInt8) : Except Defect String :=
  match String.fromUTF8? bs.toByteArray with
  | some s => .ok s
  | none => .error ((firstDefect 0 0 [] bs).getD ⟨bs.length, none⟩)

/-! ## Laws -/

theorem fromUTF8?_eq_some_iff {b : ByteArray} {s : String} :
    String.fromUTF8? b = some s ↔ s.toUTF8 = b := by
  unfold String.fromUTF8?
  constructor
  · intro read
    split at read
    · cases read
      rfl
    · cases read
  · rintro rfl
    exact dif_pos s.isValidUTF8

theorem toByteArray_eq_iff {b : ByteArray} {bs : List UInt8} :
    b = bs.toByteArray ↔ b.data.toList = bs := by
  constructor
  · rintro rfl
    simp
  · rintro rfl
    exact ByteArray.ext (by simp)

/-- `decode` accepts a list of bytes exactly when it is the stored form of a text. -/
theorem decode_eq_ok_iff {bs : List UInt8} {s : String} : decode bs = .ok s ↔ bytes s = bs := by
  unfold decode bytes
  rw [← toByteArray_eq_iff, ← fromUTF8?_eq_some_iff]
  split <;> rename_i h <;> simp [h]

theorem decode_bytes (s : String) : decode (bytes s) = .ok s := decode_eq_ok_iff.2 rfl

end Utf8

end RowStore
