/-
# RowStore.Bitmap -- single bits and byte ranges of a page image

Bit `i` of an image is bit `i % 8` of byte `i / 8`, the low bit first.  `setBit`
changes one bit (`bit_setBit`) and `overwrite` one range of bytes
(`getElem?_overwrite`); neither changes the length of the image.  `slice` reads a
range (`slice_eq`); the last section says which ranges a change leaves as they were.
-/

namespace RowStore

set_option autoImplicit false

/-- The bytes of a page or of a file. -/
abbrev Image := Array UInt8

namespace Image

def zeros (size : Nat) : Image := Array.replicate size 0

/-- Bit `i`, the low bit of each byte first. -/
def bit (image : Image) (i : Nat) : Bool := (image.getD (i / 8) 0).toNat.testBit (i % 8)

/-- The byte with bit `k` set or cleared. -/
def withBit (byte : UInt8) (k : Nat) (used : Bool) : UInt8 :=
  if byte.toNat.testBit k = used then byte else (byte.toNat ^^^ 1 <<< k).toUInt8

def setBit (image : Image) (i : Nat) (used : Bool) : Image :=
  image.modify (i / 8) fun byte => withBit byte (i % 8) used

/-- The bytes from `offset` on. -/
def slice (image : Image) (offset length : Nat) : List UInt8 :=
  (image.extract offset (offset + length)).toList

/-- Put the bytes over those from `offset` on; what would lie past the end is dropped. -/
def overwrite (image : Image) (offset : Nat) : List UInt8 → Image
  | [] => image
  | b :: rest => overwrite (image.setIfInBounds offset b) (offset + 1) rest

/-! ## Laws -/

@[simp] theorem size_zeros (size : Nat) : (zeros size).size = size := by simp [zeros]

@[simp] theorem bit_zeros (size i : Nat) : (zeros size).bit i = false := by
  by_cases inside : i / 8 < size <;> simp [bit, zeros, Array.getD, inside]

theorem testBit_withBit (byte : UInt8) {j k : Nat} (hk : k < 8) (used : Bool) :
    (withBit byte k used).toNat.testBit j = if j = k then used else byte.toNat.testBit j := by
  have bound : byte.toNat < 2 ^ 8 := byte.toNat_lt
  unfold withBit
  rw [Nat.one_shiftLeft]
  split
  · rename_i already
    by_cases h : j = k <;> simp [h, already]
  · rename_i different
    have small : byte.toNat ^^^ 2 ^ k < 2 ^ 8 :=
      Nat.xor_lt_two_pow bound (Nat.pow_lt_pow_right (by omega) hk)
    have kept : ((byte.toNat ^^^ 2 ^ k).toUInt8).toNat = byte.toNat ^^^ 2 ^ k := by
      simp only [Nat.toUInt8_eq, UInt8.toNat_ofNat']
      exact Nat.mod_eq_of_lt small
    rw [kept, Nat.testBit_xor, Nat.testBit_two_pow]
    by_cases h : j = k
    · subst h
      cases hb : byte.toNat.testBit j <;> cases used <;> simp_all
    · simp [h, Ne.symm h]

@[simp] theorem size_setBit (image : Image) (i : Nat) (used : Bool) :
    (image.setBit i used).size = image.size := by
  simp [setBit]

theorem bit_setBit {image : Image} {i : Nat} (inside : i / 8 < image.size) (j : Nat)
    (used : Bool) : (image.setBit i used).bit j = if j = i then used else image.bit j := by
  have eight : i % 8 < 8 := Nat.mod_lt _ (by omega)
  unfold bit setBit
  by_cases sameByte : i / 8 = j / 8
  · have there : j / 8 < image.size := sameByte ▸ inside
    simp only [Array.getD_eq_getD_getElem?, Array.getElem?_modify, sameByte, if_true,
      Array.getElem?_eq_getElem there, Option.map_some, Option.getD_some,
      testBit_withBit _ eight]
    by_cases h : j = i
    · simp [h]
    · have : j % 8 ≠ i % 8 := fun same => h (by omega)
      simp [h, this]
  · have different : j ≠ i := fun h => sameByte (by rw [h])
    simp [Array.getElem?_modify, sameByte, different]

theorem getElem?_setBit_of_ne {image : Image} {i k : Nat} (apart : k ≠ i / 8) (used : Bool) :
    (image.setBit i used)[k]? = image[k]? := by
  simp [setBit, Array.getElem?_modify, Ne.symm apart]

theorem slice_eq (image : Image) (offset length : Nat) :
    image.slice offset length = (image.toList.drop offset).take length := by
  simp [slice, Array.toList_extract, List.extract_eq_take_drop]

theorem length_slice {image : Image} {offset length : Nat}
    (inside : offset + length ≤ image.size) : (image.slice offset length).length = length := by
  rw [slice_eq, List.length_take, List.length_drop, Array.length_toList]
  omega

/-- A range begins with the byte at its offset. -/
theorem slice_succ {image : Image} {offset : Nat} (inside : offset < image.size) (length : Nat) :
    image.slice offset (length + 1) = image.getD offset 0 :: image.slice (offset + 1) length := by
  have listed : offset < image.toList.length := by simpa using inside
  rw [slice_eq, slice_eq, List.drop_eq_getElem_cons listed, List.take_succ_cons]
  simp [Array.getD, inside]

theorem drop_slice (image : Image) (offset length count : Nat) :
    (image.slice offset length).drop count = image.slice (offset + count) (length - count) := by
  rw [slice_eq, slice_eq, List.drop_take, List.drop_drop]

theorem take_slice (image : Image) (offset : Nat) {length count : Nat} (within : count ≤ length) :
    (image.slice offset length).take count = image.slice offset count := by
  rw [slice_eq, slice_eq, List.take_take, Nat.min_eq_left within]

@[simp] theorem size_overwrite (image : Image) (offset : Nat) (bs : List UInt8) :
    (image.overwrite offset bs).size = image.size := by
  induction bs generalizing image offset with
  | nil => rfl
  | cons b rest ih => simp [overwrite, ih]

theorem getElem?_overwrite (image : Image) (offset : Nat) (bs : List UInt8) {k : Nat}
    (inside : k < image.size) :
    (image.overwrite offset bs)[k]? =
      if offset ≤ k ∧ k < offset + bs.length then bs[k - offset]? else image[k]? := by
  induction bs generalizing image offset with
  | nil => simp only [overwrite, List.length_nil]; rw [if_neg (by omega)]
  | cons b rest ih =>
      have room : k < (image.setIfInBounds offset b).size := by simpa using inside
      rw [overwrite, ih _ _ room, Array.getElem?_setIfInBounds]
      simp only [List.length_cons]
      rcases Nat.lt_trichotomy k offset with before | here | after
      · have notHere : ¬ offset = k := by omega
        rw [if_neg (by omega), if_neg notHere, if_neg (by omega)]
      · subst here
        rw [if_neg (by omega), if_pos rfl, if_pos inside, if_pos (by omega)]
        simp
      · have notHere : ¬ offset = k := by omega
        obtain ⟨d, rfl⟩ : ∃ d, k = offset + 1 + d := ⟨k - (offset + 1), by omega⟩
        have step : offset + 1 + d - offset = d + 1 := by omega
        by_cases within : d < rest.length
        · rw [if_pos (by omega), if_pos (by omega), step]
          simp
        · rw [if_neg (by omega), if_neg notHere, if_neg (by omega)]

/-! ### Ranges of a changed image -/

/-- A range is read off its bytes. -/
theorem slice_congr {image other : Image} {offset length : Nat}
    (same : ∀ k, offset ≤ k → k < offset + length → image[k]? = other[k]?) :
    image.slice offset length = other.slice offset length := by
  rw [slice_eq, slice_eq]
  apply List.ext_getElem?
  intro i
  by_cases within : i < length
  · rw [List.getElem?_take_of_lt within, List.getElem?_take_of_lt within, List.getElem?_drop,
      List.getElem?_drop, Array.getElem?_toList, Array.getElem?_toList]
    exact same (offset + i) (by omega) (by omega)
  · rw [List.getElem?_eq_none (by simp; omega), List.getElem?_eq_none (by simp; omega)]

theorem slice_overwrite_same {image : Image} {offset : Nat} {bs : List UInt8}
    (inside : offset + bs.length ≤ image.size) :
    (image.overwrite offset bs).slice offset bs.length = bs := by
  rw [slice_eq]
  apply List.ext_getElem?
  intro i
  by_cases within : i < bs.length
  · rw [List.getElem?_take_of_lt within, List.getElem?_drop, Array.getElem?_toList,
      getElem?_overwrite _ _ _ (by omega), if_pos (by omega), Nat.add_sub_cancel_left]
  · rw [List.getElem?_eq_none (by simp; omega), List.getElem?_eq_none (by omega)]

theorem slice_overwrite_apart {image : Image} {offset start length : Nat} {bs : List UInt8}
    (inside : start + length ≤ image.size)
    (apart : start + length ≤ offset ∨ offset + bs.length ≤ start) :
    (image.overwrite offset bs).slice start length = image.slice start length := by
  refine slice_congr fun k first last => ?_
  rw [getElem?_overwrite _ _ _ (by omega), if_neg (by omega)]

/-- A bit does not show in the ranges that its byte is not in. -/
theorem slice_setBit {image : Image} {i offset length : Nat} (apart : i / 8 < offset)
    (used : Bool) : (image.setBit i used).slice offset length = image.slice offset length :=
  slice_congr fun _ first _ => getElem?_setBit_of_ne (by omega) used

/-- Writing bytes changes no bit before them. -/
theorem bit_overwrite {image : Image} {offset i : Nat} {bs : List UInt8}
    (inside : offset ≤ image.size) (before : i / 8 < offset) :
    (image.overwrite offset bs).bit i = image.bit i := by
  unfold bit
  rw [Array.getD_eq_getD_getElem?, Array.getD_eq_getD_getElem?,
    getElem?_overwrite _ _ _ (by omega), if_neg (by omega)]

end Image

end RowStore
