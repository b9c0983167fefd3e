/-
# RowStore.Codec -- the fixed-width stored form of one value

Every value of a type is stored in `DataType.width` bytes: a truth value as the
byte 0 or 1, an integer as its two's complement word with the low byte first, a
text as its length in bytes, its UTF-8 form and zeros up to the limit.
`encode_length` says that the width is kept and `decode_encode` that reading
takes exactly what writing gave and leaves the rest.  `decodeAt` reads a value in
place, where it stands in an image, and `decode_slice` says that it reads the same.
-/
import RowStore.Bitmap
import RowStore.Fault

namespace RowStore

set_option autoImplicit false

/-! ## Words -/

namespace Word

/-- A word as four bytes, the low one first. -/
def bytes (w : UInt32) : List UInt8 :=
  [(w.toNat % 256).toUInt8, (w.toNat / 256 % 256).toUInt8,
    (w.toNat / 65536 % 256).toUInt8, (w.toNat / 16777216 % 256).toUInt8]

def ofBytes (a b c d : UInt8) : UInt32 :=
  UInt32.ofNat (a.toNat + 256 * b.toNat + 65536 * c.toNat + 16777216 * d.toNat)

/-- The word that begins at an offset of an image. -/
def ofImage (image : Image) (offset : Nat) : UInt32 :=
  ofBytes (image.getD offset 0) (image.getD (offset + 1) 0) (image.getD (offset + 2) 0)
    (image.getD (offset + 3) 0)

theorem ofBytes_bytes (w : UInt32) :
    ofBytes (w.toNat % 256).toUInt8 (w.toNat / 256 % 256).toUInt8
      (w.toNat / 65536 % 256).toUInt8 (w.toNat / 16777216 % 256).toUInt8 = w := by
  have bound := w.toNat_lt
  apply UInt32.toNat_inj.1
  simp only [ofBytes, UInt32.toNat_ofNat', Nat.toUInt8_eq, UInt8.toNat_ofNat']
  omega

theorem bytes_ofBytes (a b c d : UInt8) : bytes (ofBytes a b c d) = [a, b, c, d] := by
  have ha := a.toNat_lt
  have hb := b.toNat_lt
  have hc := c.toNat_lt
  have hd := d.toNat_lt
  simp only [bytes, ofBytes, UInt32.toNat_ofNat', List.cons.injEq, and_true,
    ← UInt8.toNat_inj, Nat.toUInt8_eq, UInt8.toNat_ofNat']
  omega

end Word

/-! ## Values -/

namespace Value

/-- The stored form of a value. -/
def encode : Value → Except DataFault (List UInt8)
  | .bool b => .ok [if b then 1 else 0]
  | .int n => .ok (Word.bytes n.toUInt32)
  | .text s =>
      let stored := Utf8.bytes s
      if stored.length ≤ textLimit then
        .ok (Word.bytes stored.length.toUInt32 ++ stored ++
          List.replicate (textLimit - stored.length) 0)
      else .error (.textTooLong stored.length)

/-- The text with that length and those bytes. -/
def ofText (length : Nat) (stored : List UInt8) : Except DataFault Value :=
  if length ≤ textLimit then
    match Utf8.decode stored with
    | .ok s => .ok (.text s)
    | .error defect => .error (.notText defect)
  else .error (.lengthTooLarge length)

/-- Read a text: its length, its bytes and the filling up to the limit. -/
def decodeText (a b c d : UInt8) (rest : List UInt8) : Except DataFault (Value × List UInt8) :=
  let length := (Word.ofBytes a b c d).toNat
  (ofText length (rest.take length)).map fun v => (v, rest.drop textLimit)

/-- Read a value of the type from the front of the bytes; the rest follows it. -/
def decode (type : DataType) (bs : List UInt8) : Except DataFault (Value × List UInt8) :=
  if bs.length < type.width then .error (.tooFewBytes type bs.length)
  else
    match type, bs with
    | .boolean, b :: rest =>
        if b = 0 then .ok (.bool false, rest)
        else if b = 1 then .ok (.bool true, rest)
        else .error (.notBoolean b)
    | .int, a :: b :: c :: d :: rest => .ok (.int (Word.ofBytes a b c d).toInt32, rest)
    | .varchar, a :: b :: c :: d :: rest => decodeText a b c d rest
    | type, bs => .error (.tooFewBytes type bs.length)

/-- Read a value where it stands in an image. -/
def decodeAt (type : DataType) (image : Image) (offset : Nat) : Except DataFault Value :=
  match type with
  | .boolean =>
      let b := image.getD offset 0
      if b = 0 then .ok (.bool false)
      else if b = 1 then .ok (.bool true)
      else .error (.notBoolean b)
  | .int => .ok (.int (Word.ofImage image offset).toInt32)
  | .varchar =>
      let length := (Word.ofImage image offset).toNat
      ofText length (image.slice (offset + 4) length)

/-! ## Laws -/

theorem length_bytes (w : UInt32) : (Word.bytes w).length = 4 := rfl

theorem encode_length {v : Value} {bs : List UInt8} (stored : v.encode = .ok bs) :
    bs.length = v.type.width := by
  cases v with
  | bool b => cases stored; rfl
  | int n => cases stored; rfl
  | text s =>
      simp only [encode] at stored
      split at stored
      · rename_i fits
        cases stored
        simp only [List.length_append, length_bytes, List.length_replicate, type, DataType.width]
        omega
      · cases stored

/-- A text too long to be stored is the only value without a stored form. -/
theorem encode_isOk_iff {v : Value} :
    (∃ bs, v.encode = .ok bs) ↔ ∀ s, v = .text s → (Utf8.bytes s).length ≤ textLimit := by
  cases v with
  | bool b => simp [encode]
  | int n => simp [encode]
  | text s =>
      by_cases fits : (Utf8.bytes s).length ≤ textLimit <;> simp [encode, fits]

/-- Reading takes exactly what writing gave. -/
theorem decode_encode {v : Value} {bs : List UInt8} (stored : v.encode = .ok bs)
    (rest : List UInt8) : decode v.type (bs ++ rest) = .ok (v, rest) := by
  cases v with
  | bool b => cases stored; cases b <;> simp [decode, type, DataType.width]
  | int n =>
      cases stored
      have wide : ¬ (Word.bytes n.toUInt32 ++ rest).length < DataType.int.width := by
        simp [length_bytes, DataType.width]
      simp only [decode, type, wide, if_false]
      simp only [Word.bytes, List.cons_append, List.nil_append, Word.ofBytes_bytes]
      rfl
  | text s =>
      simp only [encode] at stored
      split at stored
      · rename_i fits
        cases stored
        have limit : (Utf8.bytes s).length < 2 ^ 32 := by
          simp only [textLimit] at fits; omega
        have wide : ¬ (Word.bytes (Utf8.bytes s).length.toUInt32 ++ Utf8.bytes s ++
            List.replicate (textLimit - (Utf8.bytes s).length) 0 ++ rest).length <
              DataType.varchar.width := by
          simp only [List.length_append, length_bytes, List.length_replicate, DataType.width]
          omega
        have size : ((Utf8.bytes s).length.toUInt32).toNat = (Utf8.bytes s).length := by
          rw [Nat.toUInt32_eq, UInt32.toNat_ofNat', Nat.mod_eq_of_lt limit]
        have payload : (Utf8.bytes s ++ List.replicate (textLimit - (Utf8.bytes s).length) 0).length
            = textLimit := by
          simp only [List.length_append, List.length_replicate]
          omega
        simp only [decode, type, wide, if_false]
        have word := Word.ofBytes_bytes (Utf8.bytes s).length.toUInt32
        rw [size] at word
        simp only [Word.bytes, List.cons_append, List.nil_append, decodeText, size, word]
        rw [List.drop_left' payload, List.append_assoc, List.take_left' rfl]
        simp only [ofText, fits, if_true, Utf8.decode_bytes, Except.map]
      · cases stored

/-- Four bytes of a range are those of the word in place. -/
theorem slice_four {image : Image} {offset : Nat} (inside : offset + 4 ≤ image.size)
    (length : Nat) :
    image.slice offset (length + 4) =
      image.getD offset 0 :: image.getD (offset + 1) 0 :: image.getD (offset + 2) 0 ::
        image.getD (offset + 3) 0 :: image.slice (offset + 4) length := by
  rw [Image.slice_succ (by omega), Image.slice_succ (by omega), Image.slice_succ (by omega),
    Image.slice_succ (by omega)]

/-- Reading in place is reading from the bytes that stand there. -/
theorem decode_slice {type : DataType} {image : Image} {offset length : Nat}
    (inside : offset + length ≤ image.size) (enough : type.width ≤ length) :
    decode type (image.slice offset length) =
      (decodeAt type image offset).map fun v =>
        (v, image.slice (offset + type.width) (length - type.width)) := by
  have wide : ¬ (image.slice offset length).length < type.width := by
    rw [Image.length_slice inside]
    omega
  simp only [decode, wide, if_false]
  cases type with
  | boolean =>
      obtain ⟨n, rfl⟩ : ∃ n, length = n + 1 := ⟨length - 1, by
        simp only [DataType.width] at enough; omega⟩
      rw [Image.slice_succ (by omega)]
      simp only [decodeAt, DataType.width, Nat.add_sub_cancel]
      repeat' split
      all_goals simp_all [Except.map]
  | int =>
      obtain ⟨n, rfl⟩ : ∃ n, length = n + 4 := ⟨length - 4, by
        simp only [DataType.width] at enough; omega⟩
      rw [slice_four (by omega)]
      simp [decodeAt, Word.ofImage, DataType.width, Except.map]
  | varchar =>
      obtain ⟨n, rfl⟩ : ∃ n, length = n + 4 := ⟨length - 4, by
        simp only [DataType.width] at enough; omega⟩
      simp only [DataType.width] at enough
      rw [slice_four (by omega)]
      simp only [decodeText, decodeAt, Word.ofImage]
      generalize (Word.ofBytes (image.getD offset 0) (image.getD (offset + 1) 0)
        (image.getD (offset + 2) 0) (image.getD (offset + 3) 0)).toNat = count
      rw [Image.drop_slice, DataType.width, Nat.add_assoc,
        show n + 4 - (4 + textLimit) = n - textLimit by omega]
      by_cases fits : count ≤ textLimit
      · rw [Image.take_slice _ _ (by omega)]
      · simp only [ofText, fits, if_false, Except.map]

end Value

end RowStore
