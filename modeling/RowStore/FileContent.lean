/-
# RowStore.FileContent -- the bytes of a file, holes included

A file has a length and the pieces that were written to it, the newest first.  A
byte is that of the newest piece that reaches its place (`byte`), and zero where none
does, so a write far past the end takes no more room than its own bytes.  `byte_write`
says what a write does to every byte, and `getElem?_read` that `read` gives the bytes
of a range.
-/
import RowStore.Bitmap

namespace RowStore

set_option autoImplicit false

/-- Bytes that were written to a file from an offset on. -/
structure Piece where
  offset : Nat
  bytes : Image
deriving DecidableEq, Repr

namespace Piece

/-- The byte at a place of the file, if the piece reaches it. -/
def byte? (p : Piece) (place : Nat) : Option UInt8 :=
  if place < p.offset then none else p.bytes[place - p.offset]?

/-- Whether the piece has some byte of a range. -/
def touches (p : Piece) (offset length : Nat) : Bool :=
  decide (p.offset < offset + length) && decide (offset < p.offset + p.bytes.size)

/-- Whether the piece has all bytes of a range. -/
def covers (p : Piece) (offset length : Nat) : Bool :=
  decide (p.offset ≤ offset) && decide (offset + length ≤ p.offset + p.bytes.size)

/-- Lay the piece over a window on the file that begins at an offset. -/
def layOver (p : Piece) (offset : Nat) (window : Image) : Image :=
  let first := max offset p.offset
  window.overwrite (first - offset)
    (p.bytes.slice (first - p.offset) (offset + window.size - first))

/-! ### Laws of a piece -/

theorem touches_iff {p : Piece} {offset length : Nat} :
    p.touches offset length ↔ p.offset < offset + length ∧ offset < p.offset + p.bytes.size := by
  simp [touches]

theorem covers_iff {p : Piece} {offset length : Nat} :
    p.covers offset length ↔ p.offset ≤ offset ∧ offset + length ≤ p.offset + p.bytes.size := by
  simp [covers]

theorem byte?_eq_some {p : Piece} {place : Nat} (start : p.offset ≤ place)
    (before : place < p.offset + p.bytes.size) :
    p.byte? place = some (p.bytes.getD (place - p.offset) 0) := by
  have inside : place - p.offset < p.bytes.size := by omega
  simp [byte?, Nat.not_lt.2 start, inside]

theorem byte?_eq_none {p : Piece} {place : Nat}
    (outside : place < p.offset ∨ p.offset + p.bytes.size ≤ place) : p.byte? place = none := by
  unfold byte?
  split
  · rfl
  · exact getElem?_neg _ _ (by omega)

@[simp] theorem size_layOver (p : Piece) (offset : Nat) (window : Image) :
    (p.layOver offset window).size = window.size := by
  simp [layOver]

/-- A piece that is laid over a window gives the bytes that it reaches. -/
theorem getElem?_layOver {p : Piece} {offset : Nat} {window : Image}
    (touched : p.touches offset window.size) {i : Nat} (inside : i < window.size) :
    (p.layOver offset window)[i]? = (p.byte? (offset + i)).or window[i]? := by
  have range := touches_iff.1 touched
  unfold layOver
  simp only
  rw [Image.getElem?_overwrite _ _ _ inside]
  generalize first_eq : max offset p.offset = first
  have taken : (p.bytes.slice (first - p.offset) (offset + window.size - first)).length =
      min (offset + window.size - first) (p.bytes.size - (first - p.offset)) := by
    rw [Image.slice_eq, List.length_take, List.length_drop, Array.length_toList]
  rw [taken]
  by_cases reached : p.offset ≤ offset + i ∧ offset + i < p.offset + p.bytes.size
  · rw [if_pos (by omega), byte?_eq_some reached.1 reached.2, Image.slice_eq,
      List.getElem?_take_of_lt (by omega), List.getElem?_drop, Array.getElem?_toList]
    have place : first - p.offset + (i - (first - offset)) = offset + i - p.offset := by omega
    have there : offset + i - p.offset < p.bytes.size := by omega
    rw [place]
    simp [there]
  · rw [if_neg (by omega), byte?_eq_none (by omega)]
    rfl

end Piece

structure FileContent where
  length : Nat
  /-- The newest piece comes first. -/
  pieces : List Piece
deriving DecidableEq, Repr

namespace FileContent

def empty : FileContent := ⟨0, []⟩

/-- So many zeros: one hole. -/
def zeros (length : Nat) : FileContent := ⟨length, []⟩

def ofImage (bytes : Image) : FileContent := ⟨bytes.size, [⟨0, bytes⟩]⟩

/-- The byte at a place. -/
def byte (c : FileContent) (place : Nat) : UInt8 :=
  (c.pieces.findSome? fun p => p.byte? place).getD 0

/-- The bytes of a range in a file of these pieces. -/
def gather (offset length : Nat) : List Piece → Image
  | [] => Image.zeros length
  | p :: rest =>
      if p.covers offset length then
        p.bytes.extract (offset - p.offset) (offset - p.offset + length)
      else if p.touches offset length then p.layOver offset (gather offset length rest)
      else gather offset length rest

/-- The bytes of a range. -/
def read (c : FileContent) (offset length : Nat) : Image := gather offset length c.pieces

/-- All bytes from the first to the last. -/
def image (c : FileContent) : Image := c.read 0 c.length

/-- Write bytes from an offset on, over what is there or past the end. -/
def write (c : FileContent) (offset : Nat) (bytes : Image) : FileContent :=
  let piece : Piece := ⟨offset, bytes⟩
  ⟨max c.length (offset + bytes.size),
    piece :: c.pieces.filter fun p => !piece.covers p.offset p.bytes.size⟩

/-! ## Laws -/

/-- A write changes the bytes of its range and no others. -/
theorem byte_write (c : FileContent) (offset : Nat) (bytes : Image) (place : Nat) :
    (c.write offset bytes).byte place =
      if offset ≤ place ∧ place < offset + bytes.size then bytes.getD (place - offset) 0
      else c.byte place := by
  unfold write byte
  simp only [List.findSome?_cons]
  by_cases reached : offset ≤ place ∧ place < offset + bytes.size
  · rw [Piece.byte?_eq_some reached.1 reached.2, if_pos reached]
    rfl
  · have missed : Piece.byte? ⟨offset, bytes⟩ place = none := Piece.byte?_eq_none (by
      simp only
      omega)
    simp only [missed, reached, if_false]
    congr 1
    induction c.pieces with
    | nil => rfl
    | cons p rest ih =>
        by_cases covered : Piece.covers ⟨offset, bytes⟩ p.offset p.bytes.size
        · have within := Piece.covers_iff.1 covered
          have absent : p.byte? place = none := Piece.byte?_eq_none (by
            simp only at within
            omega)
          simp [covered, absent, ih]
        · simp only [covered, Bool.not_false, List.filter_cons_of_pos, List.findSome?_cons, ih]

@[simp] theorem size_gather (offset length : Nat) (pieces : List Piece) :
    (gather offset length pieces).size = length := by
  induction pieces with
  | nil => simp [gather, Image.zeros]
  | cons p rest ih =>
      unfold gather
      split
      · rename_i covered
        have within := Piece.covers_iff.1 covered
        rw [Array.size_extract]
        omega
      · split <;> simp [ih]

theorem getElem?_gather {offset length i : Nat} (inside : i < length) (pieces : List Piece) :
    (gather offset length pieces)[i]? =
      some ((pieces.findSome? fun p => p.byte? (offset + i)).getD 0) := by
  induction pieces with
  | nil => simp [gather, Image.zeros, inside]
  | cons p rest ih =>
      unfold gather
      rw [List.findSome?_cons]
      split
      · rename_i covered
        have within := Piece.covers_iff.1 covered
        have there : offset + i - p.offset < p.bytes.size := by omega
        have place : offset - p.offset + i = offset + i - p.offset := by omega
        rw [Piece.byte?_eq_some (by omega) (by omega), Array.getElem?_extract, place]
        simp [there]
        omega
      · split
        · rename_i touched
          rw [Piece.getElem?_layOver (by rwa [size_gather]) (by rwa [size_gather]), ih]
          cases p.byte? (offset + i) <;> rfl
        · rename_i apart
          rw [Piece.touches_iff] at apart
          rw [Piece.byte?_eq_none (by omega), ih]

@[simp] theorem size_read (c : FileContent) (offset length : Nat) :
    (c.read offset length).size = length := size_gather _ _ _

/-- A range that is read holds the bytes of its places. -/
theorem getElem?_read (c : FileContent) (offset : Nat) {length i : Nat} (inside : i < length) :
    (c.read offset length)[i]? = some (c.byte (offset + i)) := getElem?_gather inside _

/-- Reading the range that was written gives what was written. -/
theorem read_write_same (c : FileContent) (offset : Nat) (bytes : Image) :
    (c.write offset bytes).read offset bytes.size = bytes := by
  apply Array.ext_getElem?
  intro i
  by_cases inside : i < bytes.size
  · rw [getElem?_read _ _ inside, byte_write, if_pos (by omega), Nat.add_sub_cancel_left]
    simp [inside]
  · simp [inside]

/-- A write leaves the bytes of every other range. -/
theorem read_write_apart (c : FileContent) {offset start length : Nat} {bytes : Image}
    (apart : start + length ≤ offset ∨ offset + bytes.size ≤ start) :
    (c.write offset bytes).read start length = c.read start length := by
  apply Array.ext_getElem?
  intro i
  by_cases inside : i < length
  · rw [getElem?_read _ _ inside, getElem?_read _ _ inside, byte_write, if_neg (by omega)]
  · simp [inside]

end FileContent

end RowStore
