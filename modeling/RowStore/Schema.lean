/-
# RowStore.Schema -- columns, rows and the stored form of a row

A schema is a list of named, typed columns.  `check` says which lists of values
are rows of it; the stored form of a row is the stored forms of its values one
after the other, so it always has `rowBytes` bytes (`encode_length`).  `decode` reads
a row back from its bytes (`decode_encode`) and `decodeAt` where it stands in an
image, which is the same (`decodeAt_eq`).
-/
import RowStore.Codec

namespace RowStore

set_option autoImplicit false

structure Column where
  name : String
  type : DataType
deriving DecidableEq, Repr, Inhabited

/-- The columns of a table or of an operator's output, in order. -/
structure Schema where
  columns : List Column
deriving DecidableEq, Repr, Inhabited

/-- A row, with the place it is stored at once it has one. -/
structure Row where
  id? : Option RecordId
  values : List Value
deriving DecidableEq, Repr, Inhabited

namespace Row

/-- A row that is stored nowhere yet. -/
def fresh (values : List Value) : Row := ⟨none, values⟩

def value? (r : Row) (column : Nat) : Option Value := r.values[column]?

end Row

/-- A row without the column satisfies no predicate on it. -/
def Predicate.holds (p : Predicate) (r : Row) : Bool :=
  match r.value? p.column with
  | some v => v.satisfies p.op p.operand
  | none => false

namespace Schema

def empty : Schema := ⟨[]⟩

def types (s : Schema) : List DataType := s.columns.map Column.type

def arity (s : Schema) : Nat := s.columns.length

def column? (s : Schema) (index : Nat) : Option Column := s.columns[index]?

/-- The position of the first column of that name. -/
def indexOf? (s : Schema) (name : String) : Option Nat :=
  s.columns.findIdx? fun c => c.name = name

/-- The bytes that one stored row takes. -/
def rowBytes (s : Schema) : Nat := DataType.totalWidth s.types

/-- The first column whose value is of another type. -/
def firstMismatch : List Column → List Value → Option ShapeFault
  | c :: cs, v :: vs =>
      if v.type = c.type then firstMismatch cs vs else some (.columnType c.name c.type v.type)
  | _, _ => none

/-- A list of values is a row of the schema when it has a value of the right type
for every column. -/
def check (s : Schema) (values : List Value) : Except ShapeFault Unit :=
  if values.length ≠ s.columns.length then .error (.arity s.columns.length values.length)
  else
    match firstMismatch s.columns values with
    | some fault => .error fault
    | none => .ok ()

/-- The stored forms of the values, one after the other. -/
def encodeValues : List Value → Except DataFault (List UInt8)
  | [] => .ok []
  | v :: vs =>
      match v.encode, encodeValues vs with
      | .ok front, .ok back => .ok (front ++ back)
      | .error fault, _ => .error fault
      | .ok _, .error fault => .error fault

def encode (s : Schema) (values : List Value) : Except Fault (List UInt8) :=
  match s.check values with
  | .error fault => .error (.badShape fault)
  | .ok () =>
      match encodeValues values with
      | .error fault => .error (.badData fault)
      | .ok bs => .ok bs

/-- Read one value per type; what is left over is dropped. -/
def decodeValues : List DataType → List UInt8 → Except DataFault (List Value)
  | [], _ => .ok []
  | t :: ts, bs =>
      match Value.decode t bs with
      | .error fault => .error fault
      | .ok (v, rest) =>
          match decodeValues ts rest with
          | .error fault => .error fault
          | .ok vs => .ok (v :: vs)

def decode (s : Schema) (bs : List UInt8) : Except DataFault (List Value) :=
  if bs.length ≠ s.rowBytes then .error (.wrongSize s.rowBytes bs.length)
  else decodeValues s.types bs

/-- Read one value per type where they stand in an image. -/
def decodeValuesAt (image : Image) : List DataType → Nat → Except DataFault (List Value)
  | [], _ => .ok []
  | t :: ts, offset =>
      match Value.decodeAt t image offset with
      | .error fault => .error fault
      | .ok v =>
          match decodeValuesAt image ts (offset + t.width) with
          | .error fault => .error fault
          | .ok vs => .ok (v :: vs)

/-- Read a row where it stands in an image. -/
def decodeAt (s : Schema) (image : Image) (offset : Nat) : Except DataFault (List Value) :=
  if image.size - offset < s.rowBytes then .error (.wrongSize s.rowBytes (image.size - offset))
  else decodeValuesAt image s.types offset

/-! ## Laws -/

theorem firstMismatch_eq_none_iff {cs : List Column} {vs : List Value}
    (same : vs.length = cs.length) :
    firstMismatch cs vs = none ↔ vs.map Value.type = cs.map Column.type := by
  induction cs generalizing vs with
  | nil => cases vs <;> simp_all [firstMismatch]
  | cons c cs ih =>
      cases vs with
      | nil => simp at same
      | cons v vs =>
          have inner := @ih vs (by simpa using same)
          by_cases fits : v.type = c.type <;> simp [firstMismatch, fits, inner]

/-- A row of the schema is a list of values of exactly its types. -/
theorem check_eq_ok_iff {s : Schema} {values : List Value} :
    s.check values = .ok () ↔ values.map Value.type = s.types := by
  unfold check types
  by_cases same : values.length = s.columns.length
  · rw [← firstMismatch_eq_none_iff same]
    simp only [same, ne_eq, not_true_eq_false, if_false]
    split <;> simp_all
  · simp only [ne_eq, same, not_false_eq_true, if_true, reduceCtorEq, false_iff]
    intro equal
    exact same (by simpa using congrArg List.length equal)

theorem encodeValues_length {values : List Value} {bs : List UInt8}
    (stored : encodeValues values = .ok bs) :
    bs.length = DataType.totalWidth (values.map Value.type) := by
  induction values generalizing bs with
  | nil => cases stored; rfl
  | cons v vs ih =>
      simp only [encodeValues] at stored
      split at stored
      · rename_i front back first others
        cases stored
        simp [DataType.totalWidth, Value.encode_length first, ih others]
      · cases stored
      · cases stored

theorem encode_eq_ok_iff {s : Schema} {values : List Value} {bs : List UInt8} :
    s.encode values = .ok bs ↔ s.check values = .ok () ∧ encodeValues values = .ok bs := by
  unfold encode
  cases s.check values with
  | error fault => simp
  | ok => cases encodeValues values <;> simp

/-- Values have no stored form because they are no row of the schema, or because of one of them. -/
theorem encode_error {s : Schema} {values : List Value} {fault : Fault}
    (refused : s.encode values = .error fault) :
    (∃ cause, s.check values = .error cause ∧ fault = .badShape cause) ∨
      s.check values = .ok () ∧ ∃ cause, encodeValues values = .error cause ∧
        fault = .badData cause := by
  unfold encode at refused
  cases checked : s.check values with
  | error cause =>
      rw [checked] at refused
      cases refused
      exact Or.inl ⟨cause, rfl, rfl⟩
  | ok =>
      rw [checked] at refused
      cases encoded : encodeValues values with
      | error cause =>
          simp only [encoded] at refused
          cases refused
          exact Or.inr ⟨rfl, cause, rfl, rfl⟩
      | ok bs =>
          simp only [encoded] at refused
          cases refused

theorem encode_length {s : Schema} {values : List Value} {bs : List UInt8}
    (stored : s.encode values = .ok bs) : bs.length = s.rowBytes := by
  obtain ⟨checked, encoded⟩ := encode_eq_ok_iff.1 stored
  rw [encodeValues_length encoded, check_eq_ok_iff.1 checked, rowBytes]

theorem decodeValues_encodeValues {values : List Value} {bs : List UInt8}
    (stored : encodeValues values = .ok bs) :
    decodeValues (values.map Value.type) bs = .ok values := by
  induction values generalizing bs with
  | nil => rfl
  | cons v vs ih =>
      simp only [encodeValues] at stored
      split at stored
      · rename_i front back first others
        cases stored
        simp only [List.map_cons, decodeValues, Value.decode_encode first, ih others]
      · cases stored
      · cases stored

/-- Reading the stored form of a row gives the row. -/
theorem decode_encode {s : Schema} {values : List Value} {bs : List UInt8}
    (stored : s.encode values = .ok bs) : s.decode bs = .ok values := by
  have wide := encode_length stored
  obtain ⟨checked, encoded⟩ := encode_eq_ok_iff.1 stored
  unfold decode
  rw [if_neg (by simp [wide]), ← check_eq_ok_iff.1 checked]
  exact decodeValues_encodeValues encoded

theorem decodeValuesAt_eq {types : List DataType} {image : Image} {offset length : Nat}
    (inside : offset + length ≤ image.size) (enough : DataType.totalWidth types ≤ length) :
    decodeValuesAt image types offset = decodeValues types (image.slice offset length) := by
  induction types generalizing offset length with
  | nil => rfl
  | cons t ts ih =>
      simp only [DataType.totalWidth] at enough
      rw [decodeValuesAt, decodeValues, Value.decode_slice inside (by omega)]
      cases Value.decodeAt t image offset with
      | error fault => rfl
      | ok v =>
          simp only [Except.map]
          rw [@ih _ (length - t.width) (by omega) (by omega)]

/-- Reading a row in place is reading it from the bytes that stand there. -/
theorem decodeAt_eq (s : Schema) (image : Image) (offset : Nat) :
    s.decodeAt image offset = s.decode (image.slice offset s.rowBytes) := by
  have read : (image.slice offset s.rowBytes).length = min s.rowBytes (image.size - offset) := by
    rw [Image.slice_eq, List.length_take, List.length_drop, Array.length_toList]
  unfold decodeAt decode
  by_cases short : image.size - offset < s.rowBytes
  · rw [if_pos short, if_pos (by omega), read, Nat.min_eq_right (by omega)]
  · rw [if_neg short, if_neg (by omega)]
    by_cases inside : offset + s.rowBytes ≤ image.size
    · exact decodeValuesAt_eq inside (Nat.le_refl _)
    · have narrow : s.rowBytes = 0 := by omega
      have none : s.types = [] := by
        cases columns : s.types with
        | nil => rfl
        | cons t ts =>
            have := t.width_pos
            rw [rowBytes, columns, DataType.totalWidth] at narrow
            omega
      rw [none]
      rfl

end Schema

end RowStore
