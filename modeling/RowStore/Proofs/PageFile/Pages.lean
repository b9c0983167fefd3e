/-
# RowStore.Proofs.PageFile.Pages -- the pages of a file are ranges of its bytes that do not meet

A write puts a page into its range and leaves the other ranges (`offset_apart`).  It may make the
file longer, so that pages before it become whole: what they hold then are the bytes that the file
had there, followed by zeros (`read_after_write`).

This is so for the pages whose end 64 bits hold, and so for all pages if they have less than 4 GiB
(`ends_lt`).  Larger pages may have one place for two, and one that the file does not have is read
all the same (`wrapped_page`).

That nothing but zeros lies behind the bytes of a file is an invariant of its pieces
(`FileContent.Enclosed`): none of them reaches past the end.
-/
import RowStore.PageFile

namespace RowStore

set_option autoImplicit false

namespace FileContent

variable {c : FileContent}

/-- No piece of the file reaches past its end. -/
def Enclosed (c : FileContent) : Prop := ∀ p ∈ c.pieces, p.offset + p.bytes.size ≤ c.length

theorem enclosed_zeros (length : Nat) : (zeros length).Enclosed := nofun

theorem enclosed_ofImage (bytes : Image) : (ofImage bytes).Enclosed := by
  intro p member
  obtain rfl := List.mem_singleton.1 member
  exact Nat.le_of_eq (Nat.zero_add _)

theorem Enclosed.write (enclosed : c.Enclosed) (offset : Nat) (bytes : Image) :
    (c.write offset bytes).Enclosed := by
  intro p member
  rcases List.mem_cons.1 member with rfl | older
  · exact Nat.le_max_right _ _
  · exact Nat.le_trans (enclosed p (List.mem_filter.1 older).1) (Nat.le_max_left _ _)

theorem Enclosed.byte_past (enclosed : c.Enclosed) {place : Nat} (past : c.length ≤ place) :
    c.byte place = 0 := by
  have unreached : c.pieces.findSome? (fun p => p.byte? place) = none :=
    List.findSome?_eq_none_iff.2 fun p member =>
      Piece.byte?_eq_none (Or.inr (Nat.le_trans (enclosed p member) past))
  rw [byte, unreached]
  rfl

/-- **A range that reaches past the end** holds the bytes that the file has there, and zeros. -/
theorem Enclosed.toList_read (enclosed : c.Enclosed) (offset length : Nat) :
    (c.read offset length).toList = c.image.slice offset length ++
      List.replicate (length - (c.image.slice offset length).length) 0 := by
  have taken : (c.image.slice offset length).length = min length (c.length - offset) := by
    rw [Image.slice_eq, List.length_take, List.length_drop, Array.length_toList, image, size_read]
  apply List.ext_getElem?
  intro i
  rw [Array.getElem?_toList, List.getElem?_append, taken]
  by_cases inside : i < length
  · rw [getElem?_read _ _ inside]
    split
    · rename_i there
      rw [Image.slice_eq, List.getElem?_take_of_lt inside, List.getElem?_drop,
        Array.getElem?_toList, image, getElem?_read _ _ (by omega), Nat.zero_add]
    · rename_i past
      rw [enclosed.byte_past (by omega), List.getElem?_replicate, if_pos (by omega)]
  · rw [if_neg (by omega), List.getElem?_replicate, if_neg (by omega)]
    exact getElem?_neg _ _ (by rwa [size_read])

end FileContent

namespace PageFile

variable {f : PageFile} {m n page : Nat} {data : Image}

/-! ## Ranges of pages -/

theorem offset_succ (f : PageFile) (page : Nat) :
    f.offset page + f.pageSize = (page + 1) * f.pageSize := (Nat.succ_mul _ _).symm

/-- The ranges of two pages do not meet. -/
theorem offset_apart (f : PageFile) (apart : m ≠ n) :
    f.offset m + f.pageSize ≤ f.offset n ∨ f.offset n + f.pageSize ≤ f.offset m := by
  rw [offset_succ, offset_succ]
  rcases Nat.lt_or_gt_of_ne apart with before | after
  · exact Or.inl (Nat.mul_le_mul_right _ before)
  · exact Or.inr (Nat.mul_le_mul_right _ after)

/-- 64 bits hold the ends of all pages with a number, unless a page takes more bytes than 32 bits
can count. -/
theorem ends_lt (numbered : page < pageLimit) (short : f.pageSize < UInt32.size) :
    (page + 1) * f.pageSize < UInt64.size :=
  calc (page + 1) * f.pageSize ≤ UInt32.size * f.pageSize := Nat.mul_le_mul_right _ numbered
    _ < UInt32.size * UInt32.size := (Nat.mul_lt_mul_left (by decide)).2 short
    _ = UInt64.size := by decide

/-- The file system takes the offsets of all pages with a number, unless a page is larger than
2 GiB. -/
theorem offset_lt_seekLimit (numbered : page < pageLimit) (small : f.pageSize ≤ UInt32.size / 2) :
    f.offset page < seekLimit :=
  calc f.offset page ≤ page * (UInt32.size / 2) := Nat.mul_le_mul_left _ small
    _ < pageLimit * (UInt32.size / 2) := (Nat.mul_lt_mul_right (by decide)).2 numbered
    _ = seekLimit := by decide

theorem offset_lt (ends : (page + 1) * f.pageSize < UInt64.size) : f.offset page < UInt64.size :=
  Nat.lt_of_le_of_lt (Nat.le_add_right _ f.pageSize) (f.offset_succ page ▸ ends)

/-- The number of whole pages, whether or not it is a page number. -/
def wholePages (f : PageFile) : Nat := f.content.length / f.pageSize

theorem lt_wholePages_iff (pos : 0 < f.pageSize) :
    page < f.wholePages ↔ (page + 1) * f.pageSize ≤ f.content.length :=
  Nat.le_div_iff_mul_le pos

/-! ## Single calls -/

theorem read_eq_of_isOk (whole : (page + 1) * f.pageSize ≤ f.content.length) :
    f.read page f.pageSize = .ok (f.content.read (f.offset page) f.pageSize) := by
  rw [read, if_neg (not_not_intro rfl), offset_succ, if_pos whole]

/-- Where nothing wraps around, a page that ends behind the end of the file is missing. -/
theorem read_eq_pastEnd (ends : (page + 1) * f.pageSize < UInt64.size)
    (short : f.content.length < (page + 1) * f.pageSize) :
    f.read page f.pageSize = .error (.pastEnd page) := by
  rw [read, if_neg (not_not_intro rfl), offset_succ, if_neg (Nat.not_le.2 short), readPast]
  simp only [Nat.mod_eq_of_lt (offset_lt ends), offset_succ, Nat.mod_eq_of_lt ends, if_pos short]

theorem read_isOk_iff (ends : (page + 1) * f.pageSize < UInt64.size) :
    (∃ image, f.read page f.pageSize = .ok image) ↔ (page + 1) * f.pageSize ≤ f.content.length := by
  constructor
  · rintro ⟨image, found⟩
    refine Nat.not_lt.1 fun short => ?_
    rw [read_eq_pastEnd ends short] at found
    cases found
  · exact fun whole => ⟨_, read_eq_of_isOk whole⟩

/-- A read of a page fails exactly for want of bytes. -/
theorem read_past_iff (ends : (page + 1) * f.pageSize < UInt64.size) :
    (∃ fault, f.read page f.pageSize = .error fault ∧ fault.kind = .unexpectedEnd) ↔
      f.content.length < (page + 1) * f.pageSize := by
  constructor
  · rintro ⟨fault, failed, -⟩
    refine Nat.not_le.1 fun whole => ?_
    rw [read_eq_of_isOk whole] at failed
    cases failed
  · exact fun short => ⟨_, read_eq_pastEnd ends short, rfl⟩

/-- Whatever a read answers is as long as a page. -/
theorem size_of_read {buffer : Nat} {image : Image} (found : f.read page buffer = .ok image) :
    image.size = f.pageSize := by
  unfold read readPast at found
  simp only at found
  repeat' split at found
  all_goals cases found
  all_goals exact FileContent.size_read _ _ _

/-- The file after a write of a page. -/
def written (f : PageFile) (page : Nat) (data : Image) : PageFile :=
  { f with content := f.content.write (f.offset page) data }

theorem put_eq (fits : data.size = f.pageSize) : f.put page data = .ok (f.written page data) := by
  rw [put, if_neg (not_not_intro fits)]
  rfl

/-- A page gets into its range if it begins in the file or the file system takes its offset. -/
theorem write_eq_put (near : f.offset page ≤ f.content.length ∨ f.offset page < seekLimit) :
    f.write page data = f.put page data := by
  unfold write
  by_cases direct : data.size ≠ f.pageSize ∨ f.offset page ≤ f.content.length
  · rw [if_pos direct]
  · rw [not_or] at direct
    have low : f.offset page < seekLimit := near.resolve_left direct.2
    have kept : f.offset page % UInt64.size = f.offset page :=
      Nat.mod_eq_of_lt (Nat.lt_trans low (by decide))
    simp only [kept]
    rw [if_neg (not_or.2 direct), if_neg (Nat.not_le.2 low), put, if_neg direct.1]

/-- A store, whose pages are small, may put its pages where a write would write them. -/
theorem write_eq_put_of_small (numbered : page < pageLimit) (small : f.pageSize ≤ UInt32.size / 2) :
    f.write page data = f.put page data :=
  write_eq_put (Or.inr (offset_lt_seekLimit numbered small))

theorem write_eq (fits : data.size = f.pageSize)
    (near : f.offset page ≤ f.content.length ∨ f.offset page < seekLimit) :
    f.write page data = .ok (f.written page data) := by
  rw [write_eq_put near, put_eq fits]

/-- A write that goes through wrote the page into its range, unless the offset wrapped around. -/
theorem eq_written_of_write {g : PageFile} (fits : data.size = f.pageSize)
    (ends : (page + 1) * f.pageSize < UInt64.size) (done : f.write page data = .ok g) :
    g = f.written page data := by
  by_cases near : f.offset page ≤ f.content.length ∨ f.offset page < seekLimit
  · rw [write_eq fits near] at done
    exact (Except.ok.inj done).symm
  · rw [not_or, Nat.not_lt] at near
    have refused : f.write page data = .error .badOffset := by
      unfold write
      simp only [Nat.mod_eq_of_lt (offset_lt ends)]
      rw [if_neg (not_or.2 ⟨not_not_intro fits, near.1⟩), if_pos near.2]
    rw [refused] at done
    cases done

section

variable (fits : data.size = f.pageSize)

include fits

theorem length_written :
    (f.written page data).content.length = max f.content.length ((page + 1) * f.pageSize) := by
  rw [← offset_succ, ← fits]
  rfl

theorem read_written_same : (f.written page data).read page f.pageSize = .ok data := by
  have long : (page + 1) * f.pageSize ≤ (f.written page data).content.length := by
    rw [length_written fits]
    exact Nat.le_max_right _ _
  refine (read_eq_of_isOk (f := f.written page data) long).trans (congrArg Except.ok ?_)
  have same := f.content.read_write_same (f.offset page) data
  rwa [fits] at same

/-- The bytes of the other ranges stay. -/
theorem content_written_apart (apart : m ≠ page) :
    (f.written page data).content.read (f.offset m) f.pageSize =
      f.content.read (f.offset m) f.pageSize := by
  apply FileContent.read_write_apart
  rw [fits]
  exact f.offset_apart apart

theorem wholePages_written (pos : 0 < f.pageSize) (page : Nat) :
    (f.written page data).wholePages = max f.wholePages (page + 1) := by
  show (f.written page data).content.length / f.pageSize = _
  rw [length_written fits, wholePages]
  rcases Nat.le_total f.content.length ((page + 1) * f.pageSize) with short | long
  · have below := Nat.div_le_div_right (c := f.pageSize) short
    rw [Nat.mul_div_cancel _ pos] at below
    rw [Nat.max_eq_right short, Nat.mul_div_cancel _ pos, Nat.max_eq_right below]
  · have above := (Nat.le_div_iff_mul_le pos).2 long
    rw [Nat.max_eq_left long, Nat.max_eq_left above]

end

theorem append_eq (f : PageFile) :
    f.append = .ok (f.pageCount, f.written f.pageCount (Image.zeros f.pageSize)) := by
  have inside : f.offset f.pageCount ≤ f.content.length :=
    Nat.le_trans (Nat.mul_le_mul_right _ (Nat.mod_le _ _)) (Nat.div_mul_le_self _ _)
  rw [append, write_eq (Image.size_zeros _) (Or.inl inside)]

/-! ## Reading what was written -/

/-- **A page that was written is read again**, and every other page reads as before if it was
whole.  If it was not, it can be read exactly if it lies in the file now; it holds the bytes that
the file had in its range, followed by zeros.  A read into a buffer for a page fails for want of
bytes exactly if the page ends past the end of the file, and a buffer of another length is refused
by reads and writes.

This is so for the pages whose end 64 bits hold, and these are all pages with a number if a page has
less than 4 GiB.  A write goes through if the file system takes the offset, and it takes those of
all these pages if they have no more than 2 GiB. -/
theorem read_after_write (enclosed : f.content.Enclosed) :
    (∀ n data, (n + 1) * f.pageSize < UInt64.size → data.size = f.pageSize →
      (f.offset n < seekLimit → ∃ g, f.write n data = .ok g) ∧
      ∀ g, f.write n data = .ok g → g.pageSize = f.pageSize ∧
        g.content.Enclosed ∧ g.content.length = max f.content.length ((n + 1) * f.pageSize) ∧
        g.read n f.pageSize = .ok data ∧
        ∀ m, (m + 1) * f.pageSize < UInt64.size → m ≠ n →
          (∀ old, f.read m f.pageSize = .ok old → g.read m f.pageSize = .ok old) ∧
          ∀ fault, f.read m f.pageSize = .error fault →
            ((∃ image, g.read m f.pageSize = .ok image) ↔
              (m + 1) * f.pageSize ≤ g.content.length) ∧
            ∀ image, g.read m f.pageSize = .ok image →
              let old := f.content.image.slice (f.offset m) f.pageSize
              image.toList = old ++ List.replicate (f.pageSize - old.length) 0) ∧
      (∀ m, (m + 1) * f.pageSize < UInt64.size →
        ((∃ fault, f.read m f.pageSize = .error fault ∧ fault.kind = .unexpectedEnd) ↔
          f.content.length < (m + 1) * f.pageSize)) ∧
      (∀ m buffer, buffer ≠ f.pageSize →
        ∃ fault, f.read m buffer = .error fault ∧ fault.kind = .invalidInput) ∧
      (∀ n data, data.size ≠ f.pageSize →
        ∃ fault, f.write n data = .error fault ∧ fault.kind = .invalidInput) ∧
      ∀ m, m < pageLimit →
        (f.pageSize < UInt32.size → (m + 1) * f.pageSize < UInt64.size) ∧
        (f.pageSize ≤ UInt32.size / 2 → f.offset m < seekLimit) := by
  refine ⟨fun n data ends fits => ⟨fun near => ⟨_, write_eq fits (Or.inr near)⟩, fun g done => ?_⟩,
    fun m ends => read_past_iff ends, fun m buffer other => ?_, fun n data other => ?_,
    fun m numbered => ⟨ends_lt numbered, offset_lt_seekLimit numbered⟩⟩
  · obtain rfl := eq_written_of_write fits ends done
    refine ⟨rfl, enclosed.write _ _, length_written fits, read_written_same fits,
      fun m known apart => ⟨fun old whole => ?_, fun fault _ => ?_⟩⟩
    · have before := (read_isOk_iff known).1 ⟨old, whole⟩
      have after : (m + 1) * f.pageSize ≤ (f.written n data).content.length := by
        rw [length_written fits]
        exact Nat.le_trans before (Nat.le_max_left _ _)
      rw [← whole, read_eq_of_isOk before, ← content_written_apart fits apart]
      exact read_eq_of_isOk (f := f.written n data) after
    · refine ⟨read_isOk_iff (f := f.written n data) known, fun image found => ?_⟩
      have whole := (read_isOk_iff (f := f.written n data) known).1 ⟨image, found⟩
      cases found.symm.trans (read_eq_of_isOk (f := f.written n data) whole)
      show ((f.written n data).content.read (f.offset m) f.pageSize).toList = _
      rw [content_written_apart fits apart]
      exact enclosed.toList_read _ _
  · exact ⟨.bufferSize f.pageSize buffer, if_pos other, rfl⟩
  · exact ⟨.bufferSize f.pageSize data.size, (if_pos (Or.inl other)).trans (if_pos other), rfl⟩

/-- One page and a half; page 3 is written, so page 1 becomes whole and page 2 is a gap. -/
theorem read_after_write_gap :
    let f : PageFile := ⟨2, .ofImage #[1, 2, 3]⟩
    ∃ g, f.write 3 #[8, 9] = .ok g ∧ g.read 3 2 = .ok #[8, 9] ∧ g.read 0 2 = .ok #[1, 2] ∧
      g.read 1 2 = .ok #[3, 0] ∧ g.read 2 2 = .ok #[0, 0] := by
  intro f
  obtain ⟨writes, -⟩ := read_after_write (f := f) (FileContent.enclosed_ofImage _)
  obtain ⟨accepted, after⟩ := writes 3 #[8, 9] (by decide) rfl
  obtain ⟨g, written⟩ := accepted (by decide)
  obtain ⟨-, -, long, same, others⟩ := after g written
  have becomes (page : Nat) (image : Image) (ends : (page + 1) * 2 < UInt64.size) (apart : page ≠ 3)
      (missing : f.read page 2 = .error (.pastEnd page)) (whole : (page + 1) * 2 ≤ 8)
      (bytes : image.toList = f.content.image.slice (f.offset page) 2 ++
        List.replicate (2 - (f.content.image.slice (f.offset page) 2).length) 0) :
      g.read page 2 = .ok image := by
    obtain ⟨readable, holds⟩ := (others page ends apart).2 _ missing
    obtain ⟨found, read⟩ := readable.2 (long ▸ whole)
    rw [← Array.toList_inj.1 ((holds found read).trans bytes.symm)]
    exact read
  refine ⟨g, written, same, (others 0 (by decide) (by decide)).1 #[1, 2] rfl, ?_, ?_⟩
  · exact becomes 1 #[3, 0] (by decide) (by decide) rfl (by decide) (by decide)
  · exact becomes 2 #[0, 0] (by decide) (by decide) rfl (by decide) (by decide)

/-- Pages of 8 GiB in a file that has one.  A page with the number 2 ^ 31 has the same place: it is
read although the file ends long before it, and to write it is to write the other one.  And of a
page that is missing, a buffer of the wrong length hears nothing. -/
theorem wrapped_page :
    let f : PageFile := ⟨2 * UInt32.size, .zeros (2 * UInt32.size)⟩
    let page := pageLimit / 2
    let ones : Image := Array.replicate f.pageSize 1
    f.content.length < (page + 1) * f.pageSize ∧ (∃ image, f.read page f.pageSize = .ok image) ∧
      (∃ g, f.write page ones = .ok g ∧ g.read 0 f.pageSize = .ok ones ∧
        f.read 0 f.pageSize ≠ .ok ones) ∧
      let empty : PageFile := ⟨4, .empty⟩
      empty.content.length < (0 + 1) * empty.pageSize ∧
        ∀ fault, empty.read 0 3 = .error fault → fault.kind ≠ .unexpectedEnd := by
  intro f page ones
  have size : ones.size = f.pageSize := Array.size_replicate
  have place : f.offset page % UInt64.size = f.offset 0 := by decide
  have inFile : (0 + 1) * f.pageSize ≤ f.content.length := by decide
  refine ⟨by decide, ⟨f.content.read (f.offset 0) f.pageSize, ?_⟩,
    ⟨f.written 0 ones, ?_, read_written_same size, fun same => ?_⟩, ?_⟩
  · rw [read, if_neg (not_not_intro rfl), if_neg (by decide), readPast]
    simp only [place]
    rw [if_neg (by decide), if_neg (by decide)]
  · unfold write
    simp only [place]
    rw [if_neg (not_or.2 ⟨not_not_intro size, by decide⟩), if_neg (by decide)]
    rfl
  · -- The first byte tells the two apart.
    have bytes := Except.ok.inj ((read_eq_of_isOk inFile).symm.trans same)
    have first := congrArg (fun image : Image => image[0]?) bytes
    simp only [FileContent.getElem?_read _ _ (show 0 < f.pageSize by decide)] at first
    rw [Array.getElem?_replicate, if_pos (by decide)] at first
    cases first
  · refine ⟨by decide, fun fault failed => ?_⟩
    cases failed
    decide

end PageFile

end RowStore
