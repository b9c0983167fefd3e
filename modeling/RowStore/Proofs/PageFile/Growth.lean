/-
# RowStore.Proofs.PageFile.Growth -- appending pages to a file

A page is appended behind the whole pages of a file, over what there may be of a partial one.
Appended one after the other, pages have consecutive numbers, and no page that was there changes
(`append_pages`).

This is so for as long as the number of whole pages is a page number.  A page number has 32 bits,
and behind `pageLimit` whole pages they are counted from zero again: a page that exists is filled
with zeros, and the file does not grow (`append_past_limit`).
-/
import RowStore.Proofs.PageFile.Pages

namespace RowStore

set_option autoImplicit false

theorem FileContent.read_congr {c d : FileContent} {offset length : Nat}
    (same : ∀ place, place < offset + length → d.byte place = c.byte place) :
    d.read offset length = c.read offset length := by
  apply Array.ext_getElem?
  intro i
  by_cases inside : i < length
  · rw [getElem?_read _ _ inside, getElem?_read _ _ inside, same _ (by omega)]
  · rw [getElem?_neg _ _ (by rwa [size_read]), getElem?_neg _ _ (by rwa [size_read])]

namespace PageFile

variable {f g h : PageFile} {k l number : Nat}

/-- Append so many pages, one after the other, and answer their numbers. -/
def appendMany : Nat → PageFile → Except FileFault (List Nat × PageFile)
  | 0, f => .ok ([], f)
  | k + 1, f =>
      match f.append with
      | .error fault => .error fault
      | .ok (number, g) =>
          match appendMany k g with
          | .error fault => .error fault
          | .ok (numbers, h) => .ok (number :: numbers, h)

/-- `g` has the whole pages of `f`, and so many pages of zeros behind them. -/
structure Extends (f g : PageFile) (k : Nat) : Prop where
  pageSize : g.pageSize = f.pageSize
  whole : g.wholePages = f.wholePages + k
  kept : ∀ place, place < f.wholePages * f.pageSize → g.content.byte place = f.content.byte place
  zeros : ∀ number, f.wholePages ≤ number → number < f.wholePages + k →
    g.read number f.pageSize = .ok (Image.zeros f.pageSize)

/-! ## Extensions -/

theorem Extends.refl (f : PageFile) : f.Extends f 0 :=
  ⟨rfl, rfl, fun _ _ => rfl, fun _ start stop => absurd stop (Nat.not_lt.2 start)⟩

/-- The whole pages of a file are read in its extensions as in the file. -/
theorem Extends.read (grown : f.Extends g k) (pos : 0 < f.pageSize)
    (inside : number < f.wholePages) : g.read number f.pageSize = f.read number f.pageSize := by
  have whole := (lt_wholePages_iff pos).1 inside
  have still : (number + 1) * g.pageSize ≤ g.content.length := by
    rw [← lt_wholePages_iff (grown.pageSize ▸ pos), grown.whole]
    exact Nat.lt_of_lt_of_le inside (Nat.le_add_right _ _)
  have found := read_eq_of_isOk still
  rw [offset, grown.pageSize] at found
  rw [found, read_eq_of_isOk whole]
  refine congrArg Except.ok (FileContent.read_congr fun place before => grown.kept place ?_)
  rw [← Nat.succ_mul] at before
  exact Nat.lt_of_lt_of_le before (Nat.mul_le_mul_right _ inside)

theorem Extends.trans (pos : 0 < f.pageSize) (first : f.Extends g k) (second : g.Extends h l) :
    f.Extends h (k + l) := by
  have size := first.pageSize
  refine ⟨second.pageSize.trans size, ?_, fun place before => ?_, fun number after before => ?_⟩
  · rw [second.whole, first.whole, Nat.add_assoc]
  · rw [second.kept, first.kept place before]
    rw [size, first.whole]
    exact Nat.lt_of_lt_of_le before (Nat.mul_le_mul_right _ (Nat.le_add_right _ _))
  · by_cases old : number < f.wholePages + k
    · have kept := second.read (size ▸ pos) (first.whole ▸ old)
      rw [size] at kept
      rw [kept, first.zeros number after old]
    · have new := second.zeros number (by rw [first.whole]; omega) (by rw [first.whole]; omega)
      rwa [size] at new

/-! ## Appending -/

/-- **One page** is appended as long as the whole pages can be counted. -/
theorem append_extends (pos : 0 < f.pageSize) (few : f.wholePages < pageLimit) :
    ∃ g, f.append = .ok (f.wholePages, g) ∧ f.Extends g 1 := by
  have counted : f.pageCount = f.wholePages := Nat.mod_eq_of_lt few
  have fits := Image.size_zeros f.pageSize
  rw [append_eq, counted]
  refine ⟨_, rfl, rfl, ?_, fun place before => ?_, fun number after before => ?_⟩
  · rw [wholePages_written fits pos, Nat.max_eq_right (Nat.le_succ _)]
  · have outside : ¬ (f.offset f.wholePages ≤ place ∧
        place < f.offset f.wholePages + (Image.zeros f.pageSize).size) := by
      rintro ⟨start, -⟩
      exact Nat.not_lt.2 start before
    exact (FileContent.byte_write _ _ _ _).trans (if_neg outside)
  · obtain rfl : number = f.wholePages := by omega
    exact read_written_same fits

/-- **Pages that are appended one after the other** have the consecutive numbers from the number
of whole pages on.  The bytes of the whole pages that there were stay, and the new pages are
zeros; what there was of a partial page is overwritten. -/
theorem append_pages (pos : 0 < f.pageSize) :
    (f.wholePages < pageLimit → ∃ g, f.append = .ok (f.wholePages, g) ∧ f.Extends g 1) ∧
      ∀ k, f.wholePages + k ≤ pageLimit →
        ∃ g, f.appendMany k = .ok (List.range' f.wholePages k, g) ∧ f.Extends g k := by
  refine ⟨append_extends pos, fun k => ?_⟩
  induction k generalizing f with
  | zero => exact fun _ => ⟨f, rfl, .refl f⟩
  | succ k ih =>
      intro room
      obtain ⟨g, appended, one⟩ := append_extends pos (by omega)
      obtain ⟨h, rest, more⟩ := ih (one.pageSize ▸ pos) (by rw [one.whole]; omega)
      refine ⟨h, ?_, Nat.add_comm 1 k ▸ one.trans pos more⟩
      rw [appendMany, appended]
      simp only [rest, one.whole, List.range'_succ]

/-- Two pages are appended to a page and a half. -/
theorem append_pages_partial :
    ∃ g, (⟨2, .ofImage #[1, 2, 3]⟩ : PageFile).appendMany 2 = .ok ([1, 2], g) ∧
      g.wholePages = 3 ∧ g.read 0 2 = .ok #[1, 2] ∧ g.read 1 2 = .ok #[0, 0] := by
  obtain ⟨-, many⟩ := append_pages (f := ⟨2, .ofImage #[1, 2, 3]⟩) (by decide)
  obtain ⟨g, run, grown⟩ := many 2 (by decide)
  refine ⟨g, run, grown.whole, ?_, ?_⟩
  · exact grown.read (by decide) (by decide)
  · exact grown.zeros 1 (by decide) (by decide)

/-- **Behind the limit** no page is appended: one that exists is filled with zeros. -/
theorem append_past_limit (pos : 0 < f.pageSize) (many : pageLimit ≤ f.wholePages) :
    ∃ g, f.append = .ok (f.wholePages % pageLimit, g) ∧ g.wholePages = f.wholePages ∧
      g.read (f.wholePages % pageLimit) f.pageSize = .ok (Image.zeros f.pageSize) := by
  have fits := Image.size_zeros f.pageSize
  have before : f.pageCount + 1 ≤ f.wholePages :=
    Nat.le_trans (Nat.mod_lt _ (by decide)) many
  refine ⟨_, append_eq f, ?_, read_written_same fits⟩
  rw [wholePages_written fits pos, Nat.max_eq_left before]

/-- A file of `pageLimit` pages, the first of which is lost when another is appended. -/
theorem append_overwrites :
    let f : PageFile := ⟨1, (FileContent.zeros pageLimit).write 0 #[1]⟩
    f.wholePages = pageLimit ∧ f.read 0 1 = .ok #[1] ∧
      ∃ g, f.append = .ok (0, g) ∧ g.wholePages = pageLimit ∧ g.read 0 1 = .ok #[0] := by
  intro f
  have whole : f.wholePages = pageLimit := by decide
  obtain ⟨g, run, same, zeros⟩ := append_past_limit (f := f) (by decide) (Nat.le_of_eq whole.symm)
  rw [whole] at run same zeros
  exact ⟨whole, rfl, g, run, same, zeros⟩

end PageFile

end RowStore
