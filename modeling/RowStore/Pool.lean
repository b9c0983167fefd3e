/-
# RowStore.Pool -- resident pages in a fixed number of frames

A pool holds pages in frames.  `directory` says in which frame a page is, `free`
lists the empty frames in the order in which they are handed out, and `recency`
orders the occupied ones by their last use.  A page that is brought in takes a free
frame, or else the frame of the least recently used page that is clean; when every
resident page is dirty there is no room (`Fault.poolFull`), so a page with
unwritten changes never leaves by eviction.

Every page that is brought in gets a fresh stamp.  Two frames seen at different
times hold the same page instance when their stamps agree.
-/
import RowStore.FinMap
import RowStore.Page
import RowStore.Recency

namespace RowStore

set_option autoImplicit false

/-- A resident page. -/
structure Frame where
  id : PageId
  page : Page
  stamp : Nat
deriving DecidableEq, Repr, Inhabited

structure Pool where
  frames : Array (Option Frame)
  directory : FinMap PageId Nat
  free : List Nat
  recency : Recency
  nextStamp : Nat

namespace Pool

/-- An empty pool hands out its frames from number zero upwards. -/
def new (capacity : Nat) : Pool :=
  ⟨Array.replicate capacity none, ∅, List.range capacity, .empty, 0⟩

/-- How many pages can be resident at once. -/
def capacity (p : Pool) : Nat := p.frames.size

def frame? (p : Pool) (index : Nat) : Option Frame := p.frames[index]?.join

/-- The occupied frames with their indices, in the order of the indices. -/
def occupied (p : Pool) : List (Nat × Frame) :=
  (List.range p.capacity).filterMap fun index =>
    (p.frame? index).map fun frame => (index, frame)

def isResident (p : Pool) (id : PageId) : Bool := p.directory.contains id

/-- The resident pages in page order. -/
def residents (p : Pool) : List PageId := PageId.sort p.directory.keys

/-- Whether a frame's page may be evicted: it has no unwritten change. -/
def mayGo (p : Pool) (index : Nat) : Bool :=
  match p.frame? index with
  | some frame => !frame.page.isDirty
  | none => false

/-- Whether a resident page of the table has unwritten changes. -/
def hasDirty (p : Pool) (table : TableId) : Bool :=
  p.occupied.any fun e => decide (e.2.id.table = table) && e.2.page.isDirty

/-- The frames whose page carries the transaction's mark, by index. -/
def dirtiedBy (p : Pool) (txn : TxnId) : List (Nat × Frame) :=
  p.occupied.filter fun e => decide (e.2.page.mark = some txn)

/-- Look at a resident page, which counts as a use. -/
def lookup (p : Pool) (id : PageId) : Option Frame × Pool :=
  match p.directory.get? id with
  | none => (none, p)
  | some index => (p.frame? index, { p with recency := p.recency.touch index })

/-- Take the page out of a frame. -/
def vacate (p : Pool) (index : Nat) : Pool :=
  match p.frame? index with
  | none => p
  | some frame =>
      { p with
        frames := p.frames.setIfInBounds index none
        directory := p.directory.erase frame.id }

/-- Find a frame for one more page. -/
def allocate (p : Pool) : Except Fault (Nat × Pool) :=
  match p.free with
  | index :: free => .ok (index, { p with free })
  | [] =>
      match p.recency.victim? p.mayGo with
      | none => .error .poolFull
      | some (index, recency) => .ok (index, { p with recency }.vacate index)

/-- Put a page into a frame and note the use. -/
def place (p : Pool) (index : Nat) (frame : Frame) : Pool :=
  { p with
    frames := p.frames.setIfInBounds index (some frame)
    directory := p.directory.insert frame.id index
    recency := p.recency.touch index }

/-- Make a page resident, in the frame it already has or in a new one. -/
def install (p : Pool) (frame : Frame) : Except Fault Pool :=
  match p.directory.get? frame.id with
  | some index => .ok (p.place index frame)
  | none =>
      match p.allocate with
      | .ok (index, room) => .ok (room.place index frame)
      | .error fault => .error fault

/-- Bring a page in under a fresh stamp. -/
def bring (p : Pool) (page : Page) : Except Fault (Frame × Pool) :=
  let frame : Frame := ⟨page.id, page, p.nextStamp⟩
  match { p with nextStamp := p.nextStamp + 1 }.install frame with
  | .ok after => .ok (frame, after)
  | .error fault => .error fault

/-- Drop a page, whatever its state; its frame is the next to be handed out. -/
def remove (p : Pool) (id : PageId) : Pool :=
  match p.directory.get? id with
  | none => p
  | some index =>
      { p with
        frames := p.frames.setIfInBounds index none
        directory := p.directory.erase id
        free := index :: p.free
        recency := p.recency.forget index }

/-- Exchange the page in a frame for a changed version of it. -/
def setPage (p : Pool) (index : Nat) (page : Page) : Pool :=
  match p.frame? index with
  | none => p
  | some frame => { p with frames := p.frames.setIfInBounds index (some { frame with page }) }

/-- The resident page instance with that stamp. -/
def find? (p : Pool) (stamp : Nat) : Option (Nat × Frame) :=
  p.occupied.find? fun e => e.2.stamp = stamp

end Pool

end RowStore
