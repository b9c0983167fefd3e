/-
# RowStore.Page -- one page of a table: an image read as slots

A page is an image of fixed size together with its id, the schema of its rows and
a mark that names the transaction whose unwritten change it carries.  `load`
accepts an image when no bit past the last slot is set and every occupied slot
holds the stored form of a row.  `insert` takes the lowest free slot, `delete`
frees one; a failing call leaves the page as it was, since it answers no page.
-/
import RowStore.Bitmap
import RowStore.Page.Layout
import RowStore.Schema

namespace RowStore

set_option autoImplicit false

structure Page where
  id : PageId
  schema : Schema
  image : Image
  /-- The transaction that changed the page since it was last written. -/
  mark : Option TxnId
deriving DecidableEq, Repr, Inhabited

namespace Page

def slots (p : Page) : Nat := slotCount p.image.size p.schema.rowBytes

def isDirty (p : Page) : Bool := p.mark.isSome

/-- Whether an existing slot holds a row. -/
def isUsed (p : Page) (slot : Nat) : Bool := decide (slot < p.slots) && p.image.bit slot

def usedSlots (p : Page) : List Nat := (List.range p.slots).filter p.image.bit

def freeSlots (p : Page) : List Nat := (List.range p.slots).filter fun slot => !p.image.bit slot

def freeCount (p : Page) : Nat := p.freeSlots.length

def slotOffset (p : Page) (slot : Nat) : Nat :=
  bitmapBytes p.slots + slot * p.schema.rowBytes

def slotBytes (p : Page) (slot : Nat) : List UInt8 :=
  p.image.slice (p.slotOffset slot) p.schema.rowBytes

/-- The values in a slot, whether or not the slot is marked as used. -/
def values (p : Page) (slot : Nat) : Except DataFault (List Value) :=
  p.schema.decodeAt p.image (p.slotOffset slot)

def withMark (p : Page) (mark : Option TxnId) : Page := { p with mark }

/-- The row in a slot, whether or not the slot is marked as used. -/
def readSlot (p : Page) (slot : Nat) : Except Fault Row :=
  match p.values slot with
  | .ok values => .ok ⟨some ⟨p.id, slot⟩, values⟩
  | .error fault => .error (.badData fault)

/-! ## Reading an image -/

/-- The first bit that is set behind those of the slots. -/
def strayBit? (p : Page) : Option Nat :=
  (List.range' p.slots (bitmapBytes p.slots * 8 - p.slots)).find? p.image.bit

/-- The first occupied slot that holds no stored row. -/
def badSlot? (p : Page) : Option (Nat × DataFault) :=
  p.usedSlots.findSome? fun slot =>
    match p.values slot with
    | .ok _ => none
    | .error fault => some (slot, fault)

/-- Read an image as a clean page of that id and schema. -/
def load (id : PageId) (schema : Schema) (image : Image) : Except Fault Page :=
  let rowBytes := schema.rowBytes
  let slots := slotCount image.size rowBytes
  let page : Page := ⟨id, schema, image, none⟩
  if rowBytes = 0 then .error (.badShape .noColumns)
  else if slots = 0 then .error (.badShape (.rowWiderThanPage rowBytes image.size))
  else if slotLimit < slots then .error (.badShape (.tooManySlots slots))
  else
    match page.strayBit? with
    | some bit => .error (.corruptPage id (.strayBit bit))
    | none =>
        match page.badSlot? with
        | some (slot, fault) => .error (.corruptPage id (.badSlot slot fault))
        | none => .ok page

/-! ## Rows -/

/-- Store the values in the lowest free slot. -/
def insert (p : Page) (values : List Value) : Except Fault (RecordId × Page) :=
  match p.schema.encode values with
  | .error fault => .error fault
  | .ok bytes =>
      match (List.range p.slots).find? fun slot => !p.image.bit slot with
      | none => .error (.pageFull p.id)
      | some slot =>
          let image := (p.image.overwrite (p.slotOffset slot) bytes).setBit slot true
          .ok (⟨p.id, slot⟩, { p with image })

/-- An existing slot that holds a row, or why it is none. -/
def checkUsed (p : Page) (slot : Nat) : Except Fault Unit :=
  if p.slots ≤ slot then .error (.badSlot slot (p.slots - 1))
  else if p.image.bit slot then .ok ()
  else .error (.rowNotFound ⟨p.id, slot⟩)

/-- Free the slot that the id names. -/
def delete (p : Page) (id : RecordId) : Except Fault Page :=
  if id.page ≠ p.id then .error (.rowNotFound id)
  else
    match p.checkUsed id.slot with
    | .error fault => .error fault
    | .ok () => .ok { p with image := p.image.setBit id.slot false }

def get (p : Page) (slot : Nat) : Except Fault Row :=
  match p.checkUsed slot with
  | .error fault => .error fault
  | .ok () => p.readSlot slot

/-- All stored rows, in the order of their slots. -/
def rows (p : Page) : Except Fault (List Row) := p.usedSlots.mapM p.readSlot

theorem values_eq (p : Page) (slot : Nat) : p.values slot = p.schema.decode (p.slotBytes slot) :=
  p.schema.decodeAt_eq p.image (p.slotOffset slot)

end Page

/-! ## Changing a page step by step -/

/-- A computation on one page: it answers or fails, and leaves a page either way. -/
abbrev PageAction (α : Type) := ExceptT Fault (StateM Page) α

namespace PageAction

/-- A call that only looks. -/
def query {α : Type} (call : Page → Except Fault α) : PageAction α := do
  liftExcept (call (← get))
where
  liftExcept (r : Except Fault α) : PageAction α := ExceptT.mk (pure r)

/-- A call that answers a changed page; when it fails the page stays. -/
def change {α : Type} (call : Page → Except Fault (α × Page)) : PageAction α := fun page =>
  match call page with
  | .ok (answer, after) => (.ok answer, after)
  | .error fault => (.error fault, page)

def insert (values : List Value) : PageAction RecordId := change fun page => page.insert values

def delete (id : RecordId) : PageAction Unit :=
  change fun page => (page.delete id).map fun after => ((), after)

def mark (txn : Option TxnId) : PageAction Unit := modify fun page => page.withMark txn

/-! ### How a page action runs -/

theorem pure_apply {α : Type} (a : α) (page : Page) :
    (pure a : PageAction α) page = (.ok a, page) := rfl

theorem get_apply (page : Page) : (MonadState.get : PageAction Page) page = (.ok page, page) := rfl

theorem mark_apply (txn : Option TxnId) (page : Page) :
    mark txn page = (.ok (), page.withMark txn) := rfl

theorem insert_apply (values : List Value) (page : Page) :
    insert values page =
      match page.insert values with
      | .ok (id, after) => (.ok id, after)
      | .error fault => (.error fault, page) := by
  unfold insert change
  dsimp only
  cases page.insert values <;> rfl

theorem delete_apply (id : RecordId) (page : Page) :
    delete id page =
      match page.delete id with
      | .ok after => (.ok (), after)
      | .error fault => (.error fault, page) := by
  unfold delete change
  dsimp only
  cases page.delete id <;> rfl

theorem bind_apply {α β : Type} (first : PageAction α) (next : α → PageAction β) (page : Page) :
    (first >>= next) page =
      match first page with
      | (.ok a, after) => next a after
      | (.error fault, after) => (.error fault, after) := by
  show (ExceptT.bind first next : PageAction β) page = _
  simp only [ExceptT.bind, ExceptT.mk, ExceptT.bindCont, bind, StateT.bind]
  rcases first page with ⟨_ | _, _⟩ <;> rfl

end PageAction

end RowStore
