/-
# RowStore.Proofs.Page.Capacity -- how many slots a page has

The number of slots is one division of the bits of the page by the bits of a slot, while the layout
rounds the bitmap up to whole bytes.  Nothing is lost between the two: slots and bitmap fit into
the page for exactly the numbers up to `slotCount` (`le_slotCount_iff`).

Three limits meet here, that of the page size in the settings, that of the slots of a page, and
that of the slot numbers in a row id, which have 16 bits.  Under valid settings the first implies
the others, so every table that can be made at all has pages, and each of their slots has a number
(`slots_addressed`).
-/
import Mathlib.Order.Bounds.Defs
import RowStore.Proofs.Store.Prepared

namespace RowStore

set_option autoImplicit false

variable {slots pageBytes rowBytes : Nat}

/-- **So many slots fit** into a page with their bitmap exactly if there are no more than
`slotCount`. -/
theorem le_slotCount_iff :
    slots ≤ slotCount pageBytes rowBytes ↔ bitmapBytes slots + slots * rowBytes ≤ pageBytes := by
  have bits : slots * (rowBytes * 8 + 1) = slots * rowBytes * 8 + slots := by
    rw [Nat.mul_add, ← Nat.mul_assoc, Nat.mul_one]
  unfold slotCount
  rw [Nat.le_div_iff_mul_le (Nat.succ_pos _), bits]
  -- What the bitmap takes beyond the bits of the slots is less than a byte.
  unfold bitmapBytes
  omega

theorem isGreatest_slotCount (pageBytes rowBytes : Nat) :
    IsGreatest {slots | bitmapBytes slots + slots * rowBytes ≤ pageBytes}
      (slotCount pageBytes rowBytes) :=
  ⟨layout_fits pageBytes rowBytes, fun _ fits => le_slotCount_iff.2 fits⟩

/-- A slot below the limit is what its 16 bits say. -/
theorem toNat_slotNumber {slot : Nat} (inside : slot < slotLimit) :
    (UInt16.ofNat slot).toNat = slot := by
  rw [UInt16.toNat_ofNat']
  exact Nat.mod_eq_of_lt inside

theorem Settings.slotCount_le_limit {settings : Settings} (valid : settings.validate = .ok ())
    (wide : rowBytes ≠ 0) : slotCount settings.pageSize rowBytes ≤ slotLimit := by
  obtain ⟨⟨-, small⟩, -⟩ := Settings.validate_eq_ok_iff.1 valid
  exact (slotCount_le wide).trans small

/-- **The slots of a page** are as many as fit.  Under valid settings a row id has a number for
each of them, and a page of zeros is a page of every table that can be made. -/
theorem slots_addressed :
    (∀ pageBytes rowBytes, IsGreatest {slots | bitmapBytes slots + slots * rowBytes ≤ pageBytes}
        (slotCount pageBytes rowBytes)) ∧
      ∀ settings : Settings, settings.validate = .ok () →
        (∀ rowBytes, rowBytes ≠ 0 → slotCount settings.pageSize rowBytes ≤ 65536) ∧
          ∀ path schema file, TableFile.at? path schema settings.pageSize = .ok file →
            (∀ id, Page.load id schema (Image.zeros settings.pageSize) =
              .ok ⟨id, schema, Image.zeros settings.pageSize, none⟩) ∧
              ∀ slot, slot < slotCount settings.pageSize schema.rowBytes →
                (UInt16.ofNat slot).toNat = slot := by
  refine ⟨isGreatest_slotCount, fun settings valid => ?_⟩
  refine ⟨fun _ wide => Settings.slotCount_le_limit valid wide, ?_⟩
  intro path schema file made
  obtain ⟨⟨-, small⟩, -⟩ := Settings.validate_eq_ok_iff.1 valid
  obtain ⟨-, proper⟩ := Store.proper_of_at? small made
  obtain rfl := Store.eq_of_at? made
  refine ⟨fun id => ?_, fun slot inside => ?_⟩
  · exact (Page.sound_zeros id proper.wide proper.roomy proper.addressed).load
  · exact toNat_slotNumber (Nat.lt_of_lt_of_le inside proper.addressed)

/-- The largest pages, with rows of one byte. -/
theorem slots_addressed_largest :
    slotCount 65536 1 = 58254 ∧ slotCount 65536 1 ≤ 65536 ∧
      (∃ page, Page.load ⟨1, 0⟩ ⟨[⟨"flag", .boolean⟩]⟩ (Image.zeros 65536) = .ok page) ∧
        (UInt16.ofNat 58253).toNat = 58253 := by
  have valid : Settings.validate ⟨"db", 65536, 1⟩ = .ok () := rfl
  obtain ⟨file, made⟩ : ∃ file,
      TableFile.at? "/db/t.dat" ⟨[⟨"flag", .boolean⟩]⟩ 65536 = .ok file := ⟨_, rfl⟩
  obtain ⟨-, addressed⟩ := slots_addressed
  obtain ⟨few, pages⟩ := addressed ⟨"db", 65536, 1⟩ valid
  obtain ⟨loads, numbered⟩ := pages _ _ file made
  exact ⟨rfl, few 1 (by decide), ⟨_, loads ⟨1, 0⟩⟩, numbered 58253 (by decide)⟩

end RowStore
