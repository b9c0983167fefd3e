/-
# RowStore.Page.Layout -- where the slots of a page lie

A page begins with one occupancy bit per slot, filled up to whole bytes, and goes
on with the slots, all of one width.  `slotCount` is what a page of that size has
room for: `layout_fits` says that bitmap and slots end within the page.
-/

namespace RowStore

set_option autoImplicit false

/-- The bytes of the occupancy bitmap of so many slots. -/
def bitmapBytes (slots : Nat) : Nat := (slots + 7) / 8

/-- The slots that a page has room for: each needs its row and one bit. -/
def slotCount (pageBytes rowBytes : Nat) : Nat := pageBytes * 8 / (rowBytes * 8 + 1)

/-- A row id addresses this many slots. -/
def slotLimit : Nat := 65536

theorem le_bitmapBytes (slots : Nat) : slots ≤ bitmapBytes slots * 8 := by
  unfold bitmapBytes; omega

theorem layout_fits (pageBytes rowBytes : Nat) :
    bitmapBytes (slotCount pageBytes rowBytes) + slotCount pageBytes rowBytes * rowBytes ≤
      pageBytes := by
  have least : slotCount pageBytes rowBytes * (rowBytes * 8 + 1) ≤ pageBytes * 8 :=
    Nat.div_mul_le_self _ _
  have spread : slotCount pageBytes rowBytes * (rowBytes * 8 + 1) =
      slotCount pageBytes rowBytes * rowBytes * 8 + slotCount pageBytes rowBytes := by
    rw [Nat.mul_add, ← Nat.mul_assoc, Nat.mul_one]
  unfold bitmapBytes
  omega

/-- A page has no more slots than bytes. -/
theorem slotCount_le {pageBytes rowBytes : Nat} (wide : rowBytes ≠ 0) :
    slotCount pageBytes rowBytes ≤ pageBytes := by
  unfold slotCount
  refine Nat.div_le_of_le_mul ?_
  rw [Nat.mul_comm (rowBytes * 8 + 1)]
  exact Nat.mul_le_mul_left _ (by omega)

end RowStore
