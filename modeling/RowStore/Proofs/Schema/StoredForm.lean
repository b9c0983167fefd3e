/-
# RowStore.Proofs.Schema.StoredForm -- which bytes are rows, and which rows have bytes

Writing a row succeeds exactly for the lists of values that the schema accepts and whose
texts are short enough (`encode_isOk_iff`); reading gives them back.  Reading accepts more
than what writing gives: it does not look at the filling behind a text, which writing
makes zeros.  `inFilling` says which bytes these are.  A row that was read is written
again as the bytes it was read from, but for the filling (`encode_of_decode`).

Both directions are inductions over the columns: a value takes exactly the bytes of its
type, so what is said of one value holds of the rest of the row from there on.
-/
import Mathlib
import RowStore.Schema

namespace RowStore

set_option autoImplicit false

namespace Value

/-- The length that is stated in front of a text. -/
def statedLength : List UInt8 → Nat
  | a :: b :: c :: d :: _ => (Word.ofBytes a b c d).toNat
  | _ => 0

/-- Whether a byte of a stored value stands behind the text of the stated length. -/
def inFilling (type : DataType) (bs : List UInt8) (place : Nat) : Bool :=
  decide (type = .varchar) && decide (4 + statedLength bs ≤ place)

variable {v : Value} {bs rest : List UInt8}

theorem ofText_eq_ok_iff {length : Nat} {stored : List UInt8} :
    ofText length stored = .ok v ↔
      length ≤ textLimit ∧ ∃ s, v = .text s ∧ Utf8.bytes s = stored := by
  unfold ofText
  by_cases fits : length ≤ textLimit
  · rw [if_pos fits]
    cases read : Utf8.decode stored with
    | ok s =>
        have written := Utf8.decode_eq_ok_iff.1 read
        simp only [Except.ok.injEq, fits, true_and]
        constructor
        · rintro rfl
          exact ⟨s, rfl, written⟩
        · rintro ⟨t, rfl, same⟩
          rw [← same, Utf8.decode_bytes] at read
          cases read
          rfl
    | error defect =>
        simp only [reduceCtorEq, fits, true_and, false_iff]
        rintro ⟨t, -, same⟩
        rw [← same, Utf8.decode_bytes] at read
        cases read
  · simp [fits]

/-- The word in front of a text is written again as it stood there. -/
theorem bytes_statedLength (a b c d : UInt8) (payload : List UInt8) :
    Word.bytes (statedLength (a :: b :: c :: d :: payload)).toUInt32 = [a, b, c, d] := by
  rw [statedLength, Nat.toUInt32_eq, UInt32.ofNat_toNat, Word.bytes_ofBytes]

/-- A text that was read is written as it stands, up to its last byte. -/
theorem encode_of_decodeText {a b c d : UInt8} {payload : List UInt8}
    (enough : textLimit ≤ payload.length) (read : decodeText a b c d payload = .ok (v, rest)) :
    v.type = .varchar ∧ rest = payload.drop textLimit ∧ ∃ again, v.encode = .ok again ∧
      ∀ place, place < 4 + statedLength (a :: b :: c :: d :: payload) →
        again[place]? = (a :: b :: c :: d :: payload)[place]? := by
  have word := bytes_statedLength a b c d payload
  rw [statedLength] at word ⊢
  generalize length_eq : (Word.ofBytes a b c d).toNat = length at word
  simp only [decodeText, length_eq] at read
  cases text : ofText length (payload.take length) with
  | error fault =>
      rw [text] at read
      cases read
  | ok w =>
      rw [text] at read
      cases read
      obtain ⟨fits, s, rfl, written⟩ := ofText_eq_ok_iff.1 text
      have size : (Utf8.bytes s).length = length := by
        rw [written, List.length_take]
        omega
      have stored : encode (.text s) = .ok ([a, b, c, d] ++ payload.take length ++
          List.replicate (textLimit - length) 0) := by
        simp only [encode, size, fits, if_true, word]
        rw [written]
      refine ⟨rfl, rfl, _, stored, fun place before => ?_⟩
      have front : [a, b, c, d] ++ payload.take length =
          ([a, b, c, d] ++ payload).take (4 + length) :=
        (List.take_length_add_append length).symm
      have inside : place < (([a, b, c, d] ++ payload).take (4 + length)).length := by
        rw [List.length_take, List.length_append]
        simp only [List.length_cons, List.length_nil]
        omega
      rw [front, List.getElem?_append_left inside, List.getElem?_take_of_lt before]
      rfl

/-- A value that was read is written again as the bytes it was read from, but for the
filling, and reading took as many bytes as its type has. -/
theorem encode_of_decode {type : DataType} (read : decode type bs = .ok (v, rest)) :
    v.type = type ∧ type.width ≤ bs.length ∧ rest = bs.drop type.width ∧
      ∃ again, v.encode = .ok again ∧ ∀ place, place < type.width →
        inFilling type bs place = false → again[place]? = bs[place]? := by
  unfold decode at read
  split at read
  · cases read
  rename_i wide
  have enough : type.width ≤ bs.length := Nat.not_lt.1 wide
  split at read
  · -- A truth value is one byte, and only two bytes stand for one.
    rename_i b rest
    have first : ∀ place, place < DataType.boolean.width → place = 0 := by
      intro place inside
      simpa [DataType.width] using inside
    split at read
    · rename_i zero
      cases read
      refine ⟨rfl, enough, rfl, [0], rfl, fun place inside _ => ?_⟩
      rw [first place inside, zero]
      rfl
    · split at read
      · rename_i one
        cases read
        refine ⟨rfl, enough, rfl, [1], rfl, fun place inside _ => ?_⟩
        rw [first place inside, one]
        rfl
      · cases read
  · rename_i a b c d rest
    cases read
    refine ⟨rfl, enough, rfl, [a, b, c, d], ?_, fun place inside _ => ?_⟩
    · simp only [encode, UInt32.toUInt32_toInt32, Word.bytes_ofBytes]
    · have four : place < [a, b, c, d].length := inside
      exact (List.getElem?_append_left four).symm
  · rename_i a b c d payload
    have long : textLimit ≤ payload.length := by
      simp only [DataType.width, List.length_cons] at enough
      omega
    obtain ⟨type, left, again, stored, same⟩ := encode_of_decodeText long read
    refine ⟨type, enough, ?_, again, stored, fun place _ outside => same place ?_⟩
    · rw [left, DataType.width, Nat.add_comm]
      rfl
    · simpa [inFilling] using outside
  · cases read

end Value

namespace Schema

/-- Whether a byte of a stored row stands behind a text, in a place that the text could
have taken had it been longer. -/
def inFilling : List DataType → List UInt8 → Nat → Bool
  | [], _, _ => false
  | t :: ts, bs, place =>
      if place < t.width then Value.inFilling t bs place
      else inFilling ts (bs.drop t.width) (place - t.width)

variable {s : Schema} {values : List Value} {bs : List UInt8}

theorem encodeValues_isOk_iff :
    (∃ bs, encodeValues values = .ok bs) ↔
      ∀ text, Value.text text ∈ values → (Utf8.bytes text).length ≤ textLimit := by
  induction values with
  | nil => simp [encodeValues]
  | cons v vs ih =>
      have first := @Value.encode_isOk_iff v
      simp only [List.mem_cons, or_imp, forall_and]
      rw [← ih]
      have own : (∀ text, Value.text text = v → (Utf8.bytes text).length ≤ textLimit) ↔
          ∃ bs, v.encode = .ok bs := by
        rw [first]
        exact forall_congr' fun text => imp_congr_left eq_comm
      rw [own]
      simp only [encodeValues]
      cases v.encode with
      | error fault => simp
      | ok front => cases encodeValues vs <;> simp

/-- **Writing a row** succeeds exactly for the rows of the schema in which no text is too
long. -/
theorem encode_isOk_iff :
    (∃ bs, s.encode values = .ok bs) ↔
      s.check values = .ok () ∧
        ∀ text, Value.text text ∈ values → (Utf8.bytes text).length ≤ textLimit := by
  simp only [encode_eq_ok_iff, exists_and_left, encodeValues_isOk_iff]

/-- Values that were read are written again as the bytes they were read from, but for the
filling. -/
theorem encodeValues_of_decodeValues {types : List DataType}
    (read : decodeValues types bs = .ok values) :
    values.map Value.type = types ∧ ∃ again, encodeValues values = .ok again ∧
      ∀ place, place < DataType.totalWidth types → inFilling types bs place = false →
        again[place]? = bs[place]? := by
  induction types generalizing bs values with
  | nil =>
      cases read
      exact ⟨rfl, [], rfl, fun place inside _ => absurd inside (Nat.not_lt_zero place)⟩
  | cons t ts ih =>
      simp only [decodeValues] at read
      split at read
      · cases read
      rename_i v rest first
      split at read
      · cases read
      rename_i vs later
      cases read
      obtain ⟨own, enough, rfl, front, stored, same⟩ := Value.encode_of_decode first
      obtain ⟨others, back, more, sameLater⟩ := ih later
      have width : front.length = t.width := own ▸ Value.encode_length stored
      refine ⟨by rw [List.map_cons, own, others], front ++ back, ?_, ?_⟩
      · simp only [encodeValues, stored, more]
      · intro place inside outside
        simp only [inFilling] at outside
        by_cases here : place < t.width
        · rw [if_pos here] at outside
          rw [List.getElem?_append_left (width ▸ here)]
          exact same place here outside
        · rw [if_neg here] at outside
          simp only [DataType.totalWidth] at inside
          have behind : t.width + (place - t.width) = place := by omega
          rw [List.getElem?_append_right (by omega), width, sameLater _ (by omega) outside,
            List.getElem?_drop, behind]

/-- **Reading a row** gives a row of the schema that can be written, and is written as the
bytes it was read from, but for the filling. -/
theorem encode_of_decode (read : s.decode bs = .ok values) :
    s.check values = .ok () ∧ ∃ again, s.encode values = .ok again ∧ again.length = bs.length ∧
      ∀ place, inFilling s.types bs place = false → again[place]? = bs[place]? := by
  unfold decode at read
  split at read
  · cases read
  rename_i size
  have wide : bs.length = s.rowBytes := Decidable.not_not.1 size
  obtain ⟨types, again, stored, same⟩ := encodeValues_of_decodeValues read
  have checked : s.check values = .ok () := check_eq_ok_iff.2 types
  have written : s.encode values = .ok again := by simp only [encode, checked, stored]
  have length : again.length = bs.length := (encode_length written).trans wide.symm
  refine ⟨checked, again, written, length, fun place outside => ?_⟩
  by_cases inside : place < bs.length
  · exact same place (Nat.lt_of_lt_of_eq inside wide) outside
  · rw [List.getElem?_eq_none (by omega), List.getElem?_eq_none (by omega)]

/-- **The stored form of a row.**  The rows that can be written are those of the schema
whose texts are short enough; each is written in as many bytes as the schema says and
read back from them.  And whatever bytes can be read, the row that they give can be
written: as the same bytes but for the filling, so that it is the same row again. -/
theorem stored_form (s : Schema) :
    (∀ values,
      ((∃ bs, s.encode values = .ok bs) ↔ s.check values = .ok () ∧
        ∀ text, Value.text text ∈ values → (Utf8.bytes text).length ≤ textLimit) ∧
      ∀ bs, s.encode values = .ok bs → bs.length = s.rowBytes ∧ s.decode bs = .ok values) ∧
    ∀ bs values, s.decode bs = .ok values →
      s.check values = .ok () ∧ ∃ again, s.encode values = .ok again ∧
        again.length = bs.length ∧
        (∀ place, inFilling s.types bs place = false → again[place]? = bs[place]?) ∧
        s.decode again = .ok values := by
  refine ⟨fun values => ⟨encode_isOk_iff, fun bs stored => ?_⟩, fun bs values read => ?_⟩
  · exact ⟨encode_length stored, decode_encode stored⟩
  · obtain ⟨checked, again, written, length, same⟩ := encode_of_decode read
    exact ⟨checked, again, written, length, same, decode_encode written⟩

/-- A number and a short text, with bytes behind the text that writing would not have put
there. -/
theorem stored_form_littered :
    let s : Schema := ⟨[⟨"id", .int⟩, ⟨"name", .varchar⟩, ⟨"done", .boolean⟩]⟩
    let bs : List UInt8 :=
      [0xfe, 0xff, 0xff, 0xff, 2, 0, 0, 0, 0xc3, 0xa9] ++ List.replicate 126 0x2a ++ [1]
    let values : List Value := [.int (-2), .text "é", .bool true]
    s.decode bs = .ok values ∧ ∃ again, s.encode values = .ok again ∧ again ≠ bs ∧
      (∀ place, inFilling s.types bs place = false → again[place]? = bs[place]?) ∧
        s.decode again = .ok values := by
  intro s bs values
  have read : s.decode bs = .ok values := by cbv
  obtain ⟨-, again, written, -, same, reread⟩ := (stored_form s).2 bs values read
  refine ⟨read, again, written, ?_, same, reread⟩
  rintro rfl
  have other : (s.encode values).toOption ≠ some bs := by decide +kernel
  exact other (congrArg Except.toOption written)

end Schema

end RowStore
