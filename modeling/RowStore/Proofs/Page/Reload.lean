/-
# RowStore.Proofs.Page.Reload -- a page can be read again after any calls

An image is checked once, when it is loaded.  From then on it is trusted, and what a page
looks like after many calls is written to the file as it is.  So every call, failing ones
included, must leave an image that would be accepted again: `Sound.carryOut` says this
for one call and `Sound.after` for any number of them.

A page that is loaded again differs from the one that was written in its mark only, and a
row shows nothing of the mark (`load_after`).
-/
import Mathlib
import RowStore.Proofs.Page.Contents

namespace RowStore

set_option autoImplicit false

/-- A call that can change a page. -/
inductive PageCall where
  | insert (values : List Value)
  | delete (id : RecordId)
  | mark (txn : Option TxnId)
deriving DecidableEq, Repr

namespace Page

/-- The page after a call, whatever the call has answered. -/
def carryOut (p : Page) : PageCall → Page
  | .insert values => (PageAction.insert values p).2
  | .delete id => (PageAction.delete id p).2
  | .mark txn => (PageAction.mark txn p).2

/-- The page after some calls. -/
def after (p : Page) (calls : List PageCall) : Page := calls.foldl carryOut p

/-- A sound page in the place of another. -/
structure Succeeds (p q : Page) : Prop where
  id : q.id = p.id
  schema : q.schema = p.schema
  size : q.image.size = p.image.size
  sound : q.Sound

variable {p q r : Page}

theorem Sound.succeeds (sound : p.Sound) : p.Succeeds p := ⟨rfl, rfl, rfl, sound⟩

theorem Succeeds.trans (first : p.Succeeds q) (second : q.Succeeds r) : p.Succeeds r :=
  ⟨second.id.trans first.id, second.schema.trans first.schema, second.size.trans first.size,
    second.sound⟩

theorem Alters.succeeds {slot : Nat} {entry : Option (List Value)}
    (alters : p.Alters q slot entry) : p.Succeeds q :=
  ⟨alters.id, alters.schema, alters.size, alters.sound⟩

/-! ## One call -/

/-- A call of which every success leaves a sound page of the same shape leaves one when it
fails, too: it is the page itself. -/
theorem Sound.change {α : Type} (sound : p.Sound) {call : Page → Except Fault (α × Page)}
    (succeeds : ∀ answer q, call p = .ok (answer, q) → p.Succeeds q) :
    p.Succeeds (PageAction.change call p).2 := by
  unfold PageAction.change
  cases called : call p with
  | error fault => exact sound.succeeds
  | ok pair => exact succeeds pair.1 pair.2 called

theorem Sound.carryOut_insert (sound : p.Sound) (values : List Value) :
    p.Succeeds (p.carryOut (.insert values)) := by
  refine sound.change fun id stored inserted => ?_
  obtain ⟨-, -, -, -, alters⟩ := sound.insert inserted
  exact alters.succeeds

theorem Sound.carryOut_delete (sound : p.Sound) (id : RecordId) :
    p.Succeeds (p.carryOut (.delete id)) := by
  refine sound.change fun answer rest mapped => ?_
  cases deleted : p.delete id with
  | error fault =>
      rw [deleted] at mapped
      cases mapped
  | ok left =>
      rw [deleted] at mapped
      cases mapped
      obtain ⟨-, -, alters⟩ := sound.delete deleted
      exact alters.succeeds

/-- A call leaves a sound page of the same shape. -/
theorem Sound.carryOut (sound : p.Sound) (call : PageCall) : p.Succeeds (p.carryOut call) := by
  cases call with
  | insert values => exact sound.carryOut_insert values
  | delete id => exact sound.carryOut_delete id
  | mark txn => exact ⟨rfl, rfl, rfl, sound.withMark txn⟩

/-! ## Any number of calls -/

theorem Sound.after (sound : p.Sound) (calls : List PageCall) : p.Succeeds (p.after calls) := by
  induction calls generalizing p with
  | nil => exact sound.succeeds
  | cons call rest ih =>
      have first := sound.carryOut call
      exact first.trans (ih first.sound)

/-- A sound page has a row in each occupied slot. -/
theorem Sound.get_isOk_iff (sound : p.Sound) {slot : Nat} :
    (∃ row, p.get slot = .ok row) ↔ p.isUsed slot = true := by
  rw [← sound.isSome_at?, Option.isSome_iff_exists]
  constructor
  · rintro ⟨row, got⟩
    obtain ⟨values, found, -⟩ := get_eq_ok_iff.1 got
    exact ⟨values, found⟩
  · rintro ⟨values, found⟩
    exact ⟨_, get_eq_ok_iff.2 ⟨values, found, rfl⟩⟩

/-- **Loading again.**  Whatever calls were made on a page since it was loaded, its image
has the size that it had and is accepted as a page of the same id and schema.  The page
loaded from it has the same slots occupied, with the same rows.  And on the page itself
all rows can be read: together always, and one by one exactly in the occupied slots. -/
theorem load_after {id : PageId} {schema : Schema} {image : Image} {page : Page}
    (loaded : Page.load id schema image = .ok page) (calls : List PageCall) :
    (page.after calls).image.size = image.size ∧
      (∃ again, Page.load id schema (page.after calls).image = .ok again ∧
        again.usedSlots = (page.after calls).usedSlots ∧
        again.rows = (page.after calls).rows) ∧
      (∃ rows, (page.after calls).rows = .ok rows) ∧
      ∀ slot, (∃ row, (page.after calls).get slot = .ok row) ↔
        (page.after calls).isUsed slot = true := by
  obtain ⟨rfl, sound⟩ := load_eq_ok_iff.1 loaded
  obtain ⟨own, shape, size, still⟩ := sound.after calls
  refine ⟨size, ?_, ⟨_, still.rows_eq⟩, fun slot => still.get_isOk_iff⟩
  have again := still.load
  rw [own, shape] at again
  exact ⟨_, again, rfl, rfl⟩

/-- Two numbers are stored and one is deleted; a row of another shape is refused, and so is
the second delete of the same row. -/
theorem load_after_refusals :
    let id : PageId := ⟨⟨1⟩, 0⟩
    let schema : Schema := ⟨[⟨"n", .int⟩]⟩
    let calls : List PageCall := [.insert [.int 7], .insert [.bool true], .insert [.int 8],
      .delete ⟨id, 0⟩, .delete ⟨id, 0⟩, .mark (some ⟨5⟩)]
    ∃ page again, Page.load id schema (Image.zeros 16) = .ok page ∧
      Page.load id schema (page.after calls).image = .ok again ∧
        again.usedSlots = [1] ∧ again.rows = .ok [⟨some ⟨id, 1⟩, [.int 8]⟩] := by
  intro id schema calls
  have loaded : Page.load id schema (Image.zeros 16) = .ok ⟨id, schema, Image.zeros 16, none⟩ := by
    cbv
  obtain ⟨-, ⟨again, read, slots, rows⟩, -, -⟩ := load_after loaded calls
  refine ⟨_, again, loaded, read, ?_, ?_⟩
  · rw [slots]
    cbv
  · rw [rows]
    cbv

end Page

end RowStore
