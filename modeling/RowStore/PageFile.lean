/-
# RowStore.PageFile -- a file cut into pages

Page `n` of a file takes the bytes from `n * pageSize` on.  The number of pages is
read off the length of the file, so a partial page at the end does not count; it
is kept as a 32-bit number.  A write past the end fills the gap with zeros.

Offsets are computed with 64 bits, and sums and products wrap around: a page of 4 GiB or
more may begin where another one does.  (A build that checks arithmetic stops instead.)
No file is so long that this concerns a page that lies in it or right behind it.
-/
import RowStore.Fault
import RowStore.FileContent

namespace RowStore

set_option autoImplicit false

structure PageFile where
  pageSize : Nat
  content : FileContent
deriving DecidableEq, Repr

namespace PageFile

/-- Page numbers have 32 bits. -/
def pageLimit : Nat := UInt32.size

/-- The number of whole pages. -/
def pageCount (f : PageFile) : Nat := f.content.length / f.pageSize % pageLimit

def offset (f : PageFile) (page : Nat) : Nat := page * f.pageSize

/-- The file system takes offsets as signed numbers, and refuses the negative ones. -/
def seekLimit : Nat := UInt64.size / 2

/-- Read a page that does not lie in the file. -/
def readPast (f : PageFile) (page : Nat) : Except FileFault Image :=
  let start := f.offset page % UInt64.size
  if f.content.length < (start + f.pageSize) % UInt64.size then .error (.pastEnd page)
  else if seekLimit ≤ start then .error .badOffset
  else .ok (f.content.read start f.pageSize)

/-- Read a page into a buffer of that length. -/
def read (f : PageFile) (page buffer : Nat) : Except FileFault Image :=
  if buffer ≠ f.pageSize then .error (.bufferSize f.pageSize buffer)
  else if f.offset page + f.pageSize ≤ f.content.length then
    .ok (f.content.read (f.offset page) f.pageSize)
  else f.readPast page

/-- Put a page into its range. -/
def put (f : PageFile) (page : Nat) (data : Image) : Except FileFault PageFile :=
  if data.size ≠ f.pageSize then .error (.bufferSize f.pageSize data.size)
  else .ok { f with content := f.content.write (f.offset page) data }

/-- Write a page.  It gets into its range, unless the offset wraps around or is refused. -/
def write (f : PageFile) (page : Nat) (data : Image) : Except FileFault PageFile :=
  let start := f.offset page % UInt64.size
  if data.size ≠ f.pageSize ∨ f.offset page ≤ f.content.length then f.put page data
  else if seekLimit ≤ start then .error .badOffset
  else .ok { f with content := f.content.write start data }

/-- Append one page of zeros and answer its number. -/
def append (f : PageFile) : Except FileFault (Nat × PageFile) :=
  match f.write f.pageCount (Image.zeros f.pageSize) with
  | .ok after => .ok (f.pageCount, after)
  | .error fault => .error fault

end PageFile

end RowStore
