/-
# RowStore.Proofs.Path.TableIds -- paths that differ in one byte have two ids

A step of the hash lays a byte over the state and multiplies by the prime.  Laying the byte over
once more takes it off, and the prime is odd, so it has an inverse among the 32-bit numbers: every
byte permutes the states (`hashStep_bijective`), and bytes that follow keep two states apart.

From one state two bytes lead to two states.  So a hash tells bytes apart that differ in one place
(`hash_eq_iff`), and the ids of two tables are not the same when their paths have the same length
and differ in a single byte (`ofPath_ne`).  No more is promised: the ids of paths that differ in
several bytes can meet.
-/
import Mathlib.Logic.ExistsUnique
import Mathlib.Logic.Function.Basic
import RowStore.Proofs.Store.Prepared

namespace RowStore

set_option autoImplicit false

/-- The bytes have the same length, and differ in one place only. -/
def OneByteApart (x y : List UInt8) : Prop := x.length = y.length ∧ ∃! i : Nat, x[i]? ≠ y[i]?

theorem OneByteApart.split {x y : List UInt8} (apart : OneByteApart x y) :
    ∃ p s a b, a ≠ b ∧ x = p ++ [a] ++ s ∧ y = p ++ [b] ++ s := by
  obtain ⟨length, i, differ, only⟩ := apart
  have same : ∀ j, j ≠ i → x[j]? = y[j]? := fun j elsewhere => by
    by_contra differs
    exact elsewhere (only j differs)
  have inside : i < x.length := by
    by_contra past
    refine differ ?_
    rw [List.getElem?_eq_none (by omega), List.getElem?_eq_none (by omega)]
  have inside' : i < y.length := length ▸ inside
  have before : x.take i = y.take i := by
    apply List.ext_getElem?
    intro j
    by_cases early : j < i
    · rw [List.getElem?_take_of_lt early, List.getElem?_take_of_lt early, same j (by omega)]
    · simp [early]
  have behind : x.drop (i + 1) = y.drop (i + 1) := by
    apply List.ext_getElem?
    intro j
    rw [List.getElem?_drop, List.getElem?_drop, same (i + 1 + j) (by omega)]
  refine ⟨x.take i, x.drop (i + 1), x[i], y[i], fun equal => differ ?_, by simp, ?_⟩
  · rw [List.getElem?_eq_getElem inside, List.getElem?_eq_getElem inside', equal]
  · rw [before, behind]
    simp

namespace TableId

variable {h k : UInt32} {a b : UInt8}

/-! ## One step -/

/-- The number that undoes a multiplication by the prime. -/
def primeInverse : UInt32 := 0x359c449b

theorem hashPrime_mul_primeInverse : hashPrime * primeInverse = 1 := by decide

/-- The state before a step that laid this byte over it. -/
def unstep (hash : UInt32) (byte : UInt8) : UInt32 := hash * primeInverse ^^^ byte.toUInt32

theorem unstep_hashStep (hash : UInt32) (byte : UInt8) : unstep (hashStep hash byte) byte = hash := by
  rw [unstep, hashStep, UInt32.mul_assoc, hashPrime_mul_primeInverse, UInt32.mul_one,
    UInt32.xor_assoc, UInt32.xor_self, UInt32.xor_zero]

theorem hashStep_unstep (hash : UInt32) (byte : UInt8) : hashStep (unstep hash byte) byte = hash := by
  rw [unstep, hashStep, UInt32.xor_assoc, UInt32.xor_self, UInt32.xor_zero, UInt32.mul_assoc,
    UInt32.mul_comm primeInverse, hashPrime_mul_primeInverse, UInt32.mul_one]

/-- **A byte permutes the states** of the hash. -/
theorem hashStep_bijective (byte : UInt8) : Function.Bijective (hashStep · byte) :=
  Function.bijective_iff_has_inverse.2
    ⟨(unstep · byte), (unstep_hashStep · byte), (hashStep_unstep · byte)⟩

/-- From one state two bytes lead to two states. -/
theorem hashStep_right_inj : hashStep h a = hashStep h b ↔ a = b := by
  constructor
  · intro same
    -- Without the multiplication both states are `h` with a byte laid over it.
    have lifted : h ^^^ a.toUInt32 = h ^^^ b.toUInt32 := by
      have undone := congrArg (· * primeInverse) same
      simpa only [hashStep, UInt32.mul_assoc, hashPrime_mul_primeInverse, UInt32.mul_one]
        using undone
    exact UInt8.toUInt32_inj.1 ((UInt32.xor_right_inj h).1 lifted)
  · rintro rfl
    rfl

/-! ## Many steps -/

/-- Bytes that follow keep two states apart. -/
theorem foldl_hashStep_inj (bytes : List UInt8) :
    bytes.foldl hashStep h = bytes.foldl hashStep k ↔ h = k := by
  induction bytes generalizing h k with
  | nil => rfl
  | cons byte bytes ih =>
      rw [List.foldl_cons, List.foldl_cons, ih]
      exact (hashStep_bijective byte).injective.eq_iff

theorem hash_eq_iff (p s : List UInt8) : hash (p ++ [a] ++ s) = hash (p ++ [b] ++ s) ↔ a = b := by
  simp only [hash, List.foldl_append, List.foldl_cons, List.foldl_nil]
  rw [foldl_hashStep_inj, hashStep_right_inj]

/-- **Paths that differ in one byte have two ids**, whatever the bytes before it and behind it.  So
tables whose paths have the same length and differ in a single byte do not have the same id. -/
theorem ofPath_ne :
    (∀ p s a b, a ≠ b → ∀ x y : String,
      Utf8.bytes x = p ++ [a] ++ s → Utf8.bytes y = p ++ [b] ++ s → ofPath x ≠ ofPath y) ∧
      ∀ x y schema other pageSize size first second,
        TableFile.at? x schema pageSize = .ok first → TableFile.at? y other size = .ok second →
          OneByteApart (Utf8.bytes x) (Utf8.bytes y) → first.id ≠ second.id := by
  have told : ∀ p s a b, a ≠ b → ∀ x y : String,
      Utf8.bytes x = p ++ [a] ++ s → Utf8.bytes y = p ++ [b] ++ s → ofPath x ≠ ofPath y := by
    intro p s a b differ x y left right same
    rw [ofPath, ofPath, left, right, hash_eq_iff] at same
    exact differ same
  refine ⟨told, fun x y _ _ _ _ first second made made' apart => ?_⟩
  obtain ⟨p, s, a, b, differ, left, right⟩ := apart.split
  rw [Store.id_of_at? made, Store.id_of_at? made']
  exact told p s a b differ x y left right

/-- Tables `s` and `t` of one directory: their paths differ in the second byte. -/
theorem ofPath_ne_letters :
    ofPath "/s.dat" ≠ ofPath "/t.dat" ∧
      OneByteApart (Utf8.bytes "/s.dat") (Utf8.bytes "/t.dat") ∧
        ∃ first second, TableFile.at? "/s.dat" ⟨[⟨"flag", .boolean⟩]⟩ 2 = .ok first ∧
          TableFile.at? "/t.dat" ⟨[⟨"note", .varchar⟩]⟩ 133 = .ok second ∧ first.id ≠ second.id := by
  have left : Utf8.bytes "/s.dat" = [47, 115, 46, 100, 97, 116] := by decide
  have right : Utf8.bytes "/t.dat" = [47, 116, 46, 100, 97, 116] := by decide
  have apart : OneByteApart (Utf8.bytes "/s.dat") (Utf8.bytes "/t.dat") := by
    rw [left, right]
    refine ⟨rfl, 1, by decide, fun j differ => ?_⟩
    match j, differ with
    | 0, differ => exact absurd rfl differ
    | 1, _ => rfl
    | j + 2, differ => exact absurd rfl differ
  obtain ⟨first, made⟩ : ∃ file, TableFile.at? "/s.dat" ⟨[⟨"flag", .boolean⟩]⟩ 2 = .ok file :=
    ⟨_, rfl⟩
  obtain ⟨second, made'⟩ : ∃ file, TableFile.at? "/t.dat" ⟨[⟨"note", .varchar⟩]⟩ 133 = .ok file :=
    ⟨_, rfl⟩
  obtain ⟨paths, tables⟩ := ofPath_ne
  refine ⟨?_, apart, first, second, made, made', ?_⟩
  · exact paths [47] [46, 100, 97, 116] 115 116 (by decide) _ _ left right
  · exact tables _ _ _ _ _ _ _ _ made made' apart

end TableId

end RowStore
