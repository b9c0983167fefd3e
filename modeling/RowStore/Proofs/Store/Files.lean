/-
# RowStore.Proofs.Store.Files -- table files as sequences of page images

A table file is seen through two views: how many whole pages it has (`wholePages`) and
the image of each (`imageAt`).  Writing a page and appending one are the same change,
`putImage`, whose effect on both views is stated once.  A read from disk is a load of
the image (`readFromDisk_eq_ok_iff`).

The number of pages that the store works with is that of whole pages only as long as
it fits a page number (`Bounded`): one page later it starts again from zero, and there it
stays (`Wrapped`).

Files of different tables do not meet because a table's id is computed from the path
of its file (`Catalog.Proper.path_inj`).
-/
import RowStore.Proofs.Page.Contents
import RowStore.Proofs.PageFile.Pages
import RowStore.Store.Rows
import RowStore.Store.Tables

namespace RowStore

set_option autoImplicit false

/-! ## Registered files -/

/-- A table file that was made by the store: its id is that of its path, and each page
has room for a row and no more slots than a row id can name. -/
structure TableFile.Proper (file : TableFile) : Prop where
  named : file.id = TableId.ofPath file.path
  wide : file.schema.rowBytes ≠ 0
  roomy : slotCount file.pageSize file.schema.rowBytes ≠ 0
  addressed : slotCount file.pageSize file.schema.rowBytes ≤ slotLimit

theorem TableFile.Proper.pageSize_pos {file : TableFile} (proper : file.Proper) :
    0 < file.pageSize := by
  rcases Nat.eq_zero_or_pos file.pageSize with zero | pos
  · have roomy := proper.roomy
    rw [zero, slotCount, Nat.zero_mul, Nat.zero_div] at roomy
    exact absurd rfl roomy
  · exact pos

/-- Every registered file is proper and stands under its own id. -/
def Catalog.Proper (c : Catalog) : Prop :=
  ∀ table file, c.file table = .ok file → file.id = table ∧ file.Proper

theorem Catalog.Proper.path_inj {c : Catalog} (proper : c.Proper) {table other : TableId}
    {file held : TableFile} (first : c.file table = .ok file) (second : c.file other = .ok held)
    (same : file.path = held.path) : file = held := by
  obtain ⟨rfl, here⟩ := proper table file first
  obtain ⟨rfl, there⟩ := proper other held second
  have ids : file.id = held.id := by rw [here.named, there.named, same]
  rw [ids, second] at first
  cases first
  rfl

namespace Store

/-- The number of whole pages of a table file. -/
def wholePages (s : Store) (file : TableFile) : Nat :=
  (s.disk.content file.path).length / file.pageSize

/-- The image of a page as it lies in its file. -/
def imageAt (s : Store) (file : TableFile) (number : Nat) : Image :=
  (s.disk.content file.path).read (number * file.pageSize) file.pageSize

/-- No table file has more whole pages than page numbers can count. -/
def Bounded (s : Store) : Prop :=
  ∀ table file, s.catalog.file table = .ok file → s.wholePages file < PageFile.pageLimit

theorem pageCount_le (s : Store) (file : TableFile) : s.pageCount file ≤ s.wholePages file :=
  Nat.mod_le _ _

theorem pageCount_congr {s after : Store} {file : TableFile}
    (whole : after.wholePages file = s.wholePages file) : after.pageCount file = s.pageCount file :=
  congrArg (· % PageFile.pageLimit) whole

theorem Bounded.pageCount_eq {s : Store} (bounded : s.Bounded) {table : TableId}
    {file : TableFile} (registered : s.catalog.file table = .ok file) :
    s.pageCount file = s.wholePages file :=
  Nat.mod_eq_of_lt (bounded table file registered)

/-- The file has pages, and the count of them is zero. -/
def Wrapped (s : Store) (file : TableFile) : Prop :=
  s.pageCount file = 0 ∧ s.wholePages file ≠ 0

theorem wrapped_congr {s after : Store} {file : TableFile}
    (whole : after.wholePages file = s.wholePages file) : after.Wrapped file ↔ s.Wrapped file := by
  rw [Wrapped, Wrapped, pageCount_congr whole, whole]

theorem Bounded.not_wrapped {s : Store} (bounded : s.Bounded) {table : TableId}
    {file : TableFile} (registered : s.catalog.file table = .ok file) : ¬ s.Wrapped file := by
  rintro ⟨zero, some⟩
  rw [bounded.pageCount_eq registered] at zero
  exact some zero

/-- What is in its file is all that the views of a table look at. -/
theorem views_of_content {s after : Store} {file : TableFile}
    (content : after.disk.content file.path = s.disk.content file.path) :
    after.wholePages file = s.wholePages file ∧ after.pageCount file = s.pageCount file ∧
      ∀ id, after.readFromDisk file id = s.readFromDisk file id := by
  have pages : after.pageFile file = s.pageFile file := by rw [pageFile, pageFile, content]
  have count : after.pageCount file = s.pageCount file := by rw [pageCount, pageCount, pages]
  refine ⟨by rw [wholePages, wholePages, content], count, fun id => ?_⟩
  unfold readFromDisk
  rw [count, pages]

theorem views_congr {s after : Store} (disk : after.disk = s.disk) (file : TableFile) :
    after.wholePages file = s.wholePages file ∧ after.pageCount file = s.pageCount file ∧
      ∀ id, after.readFromDisk file id = s.readFromDisk file id :=
  views_of_content (congrArg (fun d => d.content file.path) disk)

theorem Bounded.congr {s after : Store} (bounded : s.Bounded) (catalog : after.catalog = s.catalog)
    (disk : after.disk = s.disk) : after.Bounded := by
  intro table file registered
  rw [catalog] at registered
  rw [(views_congr disk file).1]
  exact bounded table file registered

@[simp] theorem size_imageAt (s : Store) (file : TableFile) (number : Nat) :
    (s.imageAt file number).size = file.pageSize := FileContent.size_read _ _ _

/-- A whole page can be read. -/
theorem read_pageFile {s : Store} {file : TableFile} {number : Nat}
    (inside : number < s.wholePages file) :
    (s.pageFile file).read number file.pageSize = .ok (s.imageAt file number) := by
  have ends : (number + 1) * file.pageSize ≤ (s.pageFile file).content.length :=
    Nat.le_trans (Nat.mul_le_mul_right _ inside) (Nat.div_mul_le_self _ _)
  exact PageFile.read_eq_of_isOk ends

/-- **Reading a page from disk** is loading its image, within the file. -/
theorem readFromDisk_eq_ok_iff {s : Store} {file : TableFile} {id : PageId} {page : Page} :
    s.readFromDisk file id = .ok page ↔ id.table = file.id ∧ id.number < s.pageCount file ∧
      page = ⟨id, file.schema, s.imageAt file id.number, none⟩ ∧ page.Sound := by
  unfold readFromDisk TableFile.checkOwner
  by_cases own : id.table = file.id
  · rw [if_pos own]
    simp only
    by_cases past : s.pageCount file ≤ id.number
    · rw [if_pos past]
      constructor
      · rintro ⟨⟩
      · rintro ⟨-, inside, -⟩
        omega
    · have inside : id.number < s.pageCount file := by omega
      have image := read_pageFile (Nat.lt_of_lt_of_le inside (s.pageCount_le file))
      rw [if_neg past, image]
      simp only
      rw [Page.load_eq_ok_iff]
      simp [own, inside]
  · rw [if_neg own]
    simp [own]

/-! ## Writing a page -/

/-- Write an image to its place in a table file. -/
def putImage (s : Store) (file : TableFile) (number : Nat) (image : Image) : Store :=
  { s with
    disk := s.disk.write file.path
      ((s.disk.content file.path).write (number * file.pageSize) image) }

theorem content_putImage (s : Store) (file : TableFile) (number : Nat) (image : Image)
    (path : String) :
    (s.putImage file number image).disk.content path =
      if path = file.path then
        (s.disk.content file.path).write (number * file.pageSize) image
      else s.disk.content path := by
  unfold putImage Disk.content Disk.read? Disk.write
  rw [FinMap.get?_insert]
  split <;> rfl

theorem setPageFile_append {s : Store} {file : TableFile} {number : Nat} {pages : PageFile}
    (appended : (s.pageFile file).append = .ok (number, pages)) :
    number = s.pageCount file ∧
      s.setPageFile file pages = s.putImage file number (Image.zeros file.pageSize) := by
  cases (PageFile.append_eq _).symm.trans appended
  exact ⟨rfl, rfl⟩

theorem append_isOk (s : Store) (file : TableFile) :
    ∃ pages, (s.pageFile file).append = .ok (s.pageCount file, pages) :=
  ⟨_, PageFile.append_eq _⟩

theorem writeToDisk_eq {s : Store} {file : TableFile} {page : Page}
    (own : page.id.table = file.id) (size : page.image.size = file.pageSize) :
    s.writeToDisk file page = .ok (s.putImage file page.id.number page.image) := by
  have wrote : (s.pageFile file).put page.id.number page.image =
      .ok ((s.pageFile file).written page.id.number page.image) := PageFile.put_eq size
  unfold writeToDisk TableFile.checkOwner
  rw [if_pos own]
  simp only
  rw [wrote]
  rfl

section

variable (s : Store) {file : TableFile} {image : Image} (number : Nat)

theorem imageAt_putImage_same (size : image.size = file.pageSize) :
    (s.putImage file number image).imageAt file number = image := by
  unfold imageAt
  rw [content_putImage, if_pos rfl, ← size]
  exact FileContent.read_write_same _ _ _

theorem imageAt_putImage_ne (size : image.size = file.pageSize) {other : Nat}
    (apart : other ≠ number) :
    (s.putImage file number image).imageAt file other = s.imageAt file other := by
  unfold imageAt
  rw [content_putImage, if_pos rfl]
  exact PageFile.content_written_apart (f := s.pageFile file) size apart

theorem wholePages_putImage (pos : 0 < file.pageSize) (size : image.size = file.pageSize) :
    (s.putImage file number image).wholePages file = max (s.wholePages file) (number + 1) := by
  unfold wholePages
  rw [content_putImage, if_pos rfl]
  exact PageFile.wholePages_written (f := s.pageFile file) size pos number

/-- A write to one file is not seen in another. -/
theorem content_putImage_ne {path : String} (apart : path ≠ file.path) :
    (s.putImage file number image).disk.content path = s.disk.content path := by
  rw [content_putImage, if_neg apart]

theorem views_putImage_ne {other : TableFile} (apart : other.path ≠ file.path) :
    (∀ n, (s.putImage file number image).imageAt other n = s.imageAt other n) ∧
      (s.putImage file number image).wholePages other = s.wholePages other := by
  unfold imageAt wholePages
  rw [content_putImage_ne s number apart]
  exact ⟨fun _ => rfl, rfl⟩

end

section

variable {s : Store} {table other : TableId} {file held : TableFile} {image : Image}

/-- Writing over a page that exists leaves every file as long as it was. -/
theorem wholePages_putImage_inside (tables : s.catalog.Proper)
    (registered : s.catalog.file table = .ok file) (size : image.size = file.pageSize)
    {number : Nat} (inside : number < s.wholePages file)
    (listed : s.catalog.file other = .ok held) :
    (s.putImage file number image).wholePages held = s.wholePages held := by
  by_cases own : held = file
  · have pos := (tables table file registered).2.pageSize_pos
    rw [own, wholePages_putImage _ _ pos size, Nat.max_eq_left (Nat.succ_le_of_lt inside)]
  · have paths : held.path ≠ file.path := fun same => own (tables.path_inj listed registered same)
    rw [(s.views_putImage_ne _ paths).2]

/-- A page that is written is the only one that changes, over all files. -/
theorem imageAt_putImage (tables : s.catalog.Proper) {id page : PageId}
    (registered : s.catalog.file id.table = .ok file) (size : image.size = file.pageSize)
    (listed : s.catalog.file page.table = .ok held) :
    (s.putImage file id.number image).imageAt held page.number =
      if page = id then image else s.imageAt held page.number := by
  by_cases here : page = id
  · subst here
    have same : held = file := Except.ok.inj (listed.symm.trans registered)
    rw [if_pos rfl, same]
    exact imageAt_putImage_same s _ size
  · rw [if_neg here]
    by_cases own : held = file
    · have tables_same : page.table = id.table := by
        rw [← (tables _ held listed).1, ← (tables _ file registered).1, own]
      have apart : page.number ≠ id.number := by
        intro numbers
        obtain ⟨t, n⟩ := page
        exact here (by simp only at tables_same numbers; rw [tables_same, numbers])
      rw [own]
      exact imageAt_putImage_ne s _ size apart
    · have paths : held.path ≠ file.path := fun same => own (tables.path_inj listed registered same)
      exact (s.views_putImage_ne _ paths).1 _

end

/-! ## Growth -/

/-- The same tables, and no file shorter than before. -/
structure Grows (s after : Store) : Prop where
  catalog : after.catalog = s.catalog
  length : ∀ path, (s.disk.content path).length ≤ (after.disk.content path).length

theorem Grows.refl (s : Store) : s.Grows s := ⟨rfl, fun _ => Nat.le_refl _⟩

theorem Grows.trans {s mid after : Store} (first : s.Grows mid) (second : mid.Grows after) :
    s.Grows after :=
  ⟨second.catalog.trans first.catalog,
    fun path => Nat.le_trans (first.length path) (second.length path)⟩

theorem grows_putImage (s : Store) (file : TableFile) (number : Nat) (image : Image) :
    s.Grows (s.putImage file number image) := by
  refine ⟨rfl, fun path => ?_⟩
  rw [content_putImage]
  split
  · rename_i here
    rw [here]
    exact Nat.le_max_left _ _
  · exact Nat.le_refl _

theorem Grows.bounded {s after : Store} (grows : s.Grows after) (bounded : after.Bounded) :
    s.Bounded := by
  intro table file registered
  refine Nat.lt_of_le_of_lt (Nat.div_le_div_right (grows.length file.path)) ?_
  exact bounded table file (grows.catalog ▸ registered)

/-- The store after a page of zeros was appended to a table file. -/
def grown (s : Store) (file : TableFile) : Store :=
  s.putImage file (s.pageCount file) (Image.zeros file.pageSize)

theorem disk_grown_congr {s after : Store} (disk : after.disk = s.disk) (file : TableFile) :
    (after.grown file).disk = (s.grown file).disk := by
  unfold grown putImage
  rw [(views_congr disk file).2.1, disk]

section

variable {s : Store} {table : TableId} {file : TableFile}

theorem bounded_of_grown (bounded : (s.grown file).Bounded) : s.Bounded :=
  (grows_putImage s file _ _).bounded bounded

theorem wholePages_grown_ne (tables : s.catalog.Proper)
    (registered : s.catalog.file table = .ok file) {other : TableId} {held : TableFile}
    (listed : s.catalog.file other = .ok held) (apart : held ≠ file) :
    (s.grown file).wholePages held = s.wholePages held :=
  (s.views_putImage_ne _ fun same => apart (tables.path_inj listed registered same)).2

/-- The file has one page more, and the other files have the pages that they had. -/
theorem wholePages_grown (tables : s.catalog.Proper) (registered : s.catalog.file table = .ok file)
    (bounded : s.Bounded) {other : TableId} {held : TableFile}
    (listed : s.catalog.file other = .ok held) :
    (s.grown file).wholePages held = s.wholePages held + if held = file then 1 else 0 := by
  by_cases own : held = file
  · have zeros := Image.size_zeros file.pageSize
    have pos := (tables table file registered).2.pageSize_pos
    rw [if_pos own, own, grown, wholePages_putImage _ _ pos zeros, bounded.pageCount_eq registered]
    omega
  · rw [if_neg own, wholePages_grown_ne tables registered listed own]
    rfl

theorem bounded_grown (tables : s.catalog.Proper) (registered : s.catalog.file table = .ok file)
    (bounded : s.Bounded) (room : s.wholePages file + 1 < PageFile.pageLimit) :
    (s.grown file).Bounded := by
  intro other held listed
  have before := bounded other held listed
  rw [wholePages_grown tables registered bounded listed]
  split
  · rename_i own
    rw [own]
    exact room
  · exact before

/-- Unless the count starts again from zero, there is a page of zeros behind those that
were counted before. -/
theorem pageCount_grown (tables : s.catalog.Proper)
    (registered : s.catalog.file table = .ok file) (bounded : (s.grown file).Bounded) :
    (s.grown file).pageCount file = s.pageCount file + 1 ∧
      (s.grown file).imageAt file (s.pageCount file) = Image.zeros file.pageSize := by
  have zeros := Image.size_zeros file.pageSize
  have before := bounded_of_grown bounded
  refine ⟨?_, imageAt_putImage_same s _ zeros⟩
  rw [bounded.pageCount_eq registered, wholePages_grown tables registered before registered,
    before.pageCount_eq registered, if_pos rfl]

theorem pageCount_grown_ne (tables : s.catalog.Proper)
    (registered : s.catalog.file table = .ok file) {other : TableId} {held : TableFile}
    (listed : s.catalog.file other = .ok held) (apart : held ≠ file) :
    (s.grown file).pageCount held = s.pageCount held :=
  pageCount_congr (wholePages_grown_ne tables registered listed apart)

/-- A file gets longer only while all its pages are counted. -/
theorem wholePages_grown_cases (pos : 0 < file.pageSize) :
    (s.grown file).wholePages file = s.wholePages file ∨
      s.pageCount file = s.wholePages file ∧
        (s.grown file).wholePages file = s.wholePages file + 1 := by
  rw [grown, wholePages_putImage _ _ pos (Image.size_zeros _)]
  rcases Nat.lt_or_eq_of_le (s.pageCount_le file) with fewer | all
  · exact Or.inl (Nat.max_eq_left fewer)
  · exact Or.inr ⟨all, by rw [all]; exact Nat.max_eq_right (Nat.le_succ _)⟩

theorem pageCount_grown_le (s : Store) (file : TableFile) :
    (s.grown file).pageCount file ≤ s.pageCount file + 1 := by
  rcases Nat.eq_zero_or_pos file.pageSize with zero | pos
  · have none : (s.grown file).wholePages file = 0 := by rw [wholePages, zero, Nat.div_zero]
    exact Nat.le_trans ((s.grown file).pageCount_le file) (by rw [none]; exact Nat.zero_le _)
  · rcases wholePages_grown_cases pos with same | ⟨all, longer⟩
    · exact Nat.le_trans (Nat.le_of_eq (pageCount_congr same)) (Nat.le_succ _)
    · rw [all, ← longer]
      exact (s.grown file).pageCount_le file

/-- A count that has started again from zero does not move any more. -/
theorem Wrapped.grown (tables : s.catalog.Proper) (registered : s.catalog.file table = .ok file)
    {other : TableId} {held : TableFile} (listed : s.catalog.file other = .ok held)
    (wrapped : s.Wrapped held) : (s.grown file).Wrapped held := by
  obtain ⟨zero, some⟩ := wrapped
  have whole : (s.grown file).wholePages held = s.wholePages held := by
    by_cases own : held = file
    · subst own
      rcases wholePages_grown_cases (tables table held registered).2.pageSize_pos with
        same | ⟨all, -⟩
      · exact same
      · exact absurd (all.symm.trans zero) some
    · exact wholePages_grown_ne tables registered listed own
  exact ⟨(pageCount_congr whole).trans zero, by rw [whole]; exact some⟩

/-- Unless the count starts again from zero, no page drops out of it. -/
theorem pageCount_le_grown (tables : s.catalog.Proper)
    (registered : s.catalog.file table = .ok file) {other : TableId} {held : TableFile}
    (listed : s.catalog.file other = .ok held) (counted : ¬ (s.grown file).Wrapped held) :
    s.pageCount held ≤ (s.grown file).pageCount held := by
  by_cases own : held = file
  · subst own
    rcases wholePages_grown_cases (tables table held registered).2.pageSize_pos with
      same | ⟨all, longer⟩
    · exact Nat.le_of_eq (pageCount_congr same).symm
    · have count : (s.grown held).pageCount held = (s.pageCount held + 1) % PageFile.pageLimit := by
        rw [all, ← longer]
        rfl
      have limit : s.pageCount held < PageFile.pageLimit := Nat.mod_lt _ (by decide)
      rcases Nat.lt_or_eq_of_le (Nat.succ_le_of_lt limit) with room | last
      · rw [count, Nat.mod_eq_of_lt room]
        exact Nat.le_succ _
      · refine absurd ⟨?_, by rw [longer]; exact Nat.succ_ne_zero _⟩ counted
        rw [count, ← Nat.succ_eq_add_one, last, Nat.mod_self]
  · exact Nat.le_of_eq (pageCount_grown_ne tables registered listed own).symm

/-- No page that was there before is changed. -/
theorem imageAt_grown (tables : s.catalog.Proper) (registered : s.catalog.file table = .ok file)
    {other : TableId} {held : TableFile} (listed : s.catalog.file other = .ok held) {number : Nat}
    (inside : number < s.pageCount held) :
    (s.grown file).imageAt held number = s.imageAt held number := by
  have zeros := Image.size_zeros file.pageSize
  by_cases own : held = file
  · subst own
    exact imageAt_putImage_ne s _ zeros (by omega)
  · have paths : held.path ≠ file.path := fun same => own (tables.path_inj listed registered same)
    exact (s.views_putImage_ne _ paths).1 number

end

end Store

end RowStore
