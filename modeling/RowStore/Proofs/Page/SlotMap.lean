/-
# RowStore.Proofs.Page.SlotMap -- a page is a partial map from its slots to values

What a page holds (`at?`) is a partial map from slot numbers to lists of values.  Every call
looks at this map or changes it in one place: an insert fills the lowest free slot (`Inserted`),
a delete frees the slot that it names (`Deleted`), and the rows are the map in the order of the
slots.  A call that fails leaves the page itself.  `maps_slots` says this of every page that
there can be.

The map does not show all of an image, so the changes are also said in bytes and bits: an insert
leaves the bytes of the other slots, free ones included, and a delete leaves every bit but one.
-/
import Mathlib
import RowStore.Proofs.Page.Contents

namespace RowStore

set_option autoImplicit false

namespace Page

variable {p q : Page} {slot : Nat} {values : List Value} {bytes : List UInt8}
  {entry : Option (List Value)}

/-- A page that is accepted when it is read from its image: every page that there can be, since
each call leaves such a page. -/
def Valid (p : Page) : Prop := Page.load p.id p.schema p.image = .ok (p.withMark none)

theorem valid_iff_sound : p.Valid ↔ p.Sound :=
  ⟨fun valid => (load_eq_ok_iff.1 valid).2.withMark p.mark, Sound.load⟩

/-! ## Occupancy -/

theorem Sound.isUsed_eq (sound : p.Sound) (slot : Nat) : p.isUsed slot = (p.at? slot).isSome :=
  Bool.eq_iff_iff.2 sound.isSome_at?.symm

theorem lt_of_at? (held : p.at? slot ≠ none) : slot < p.slots := by
  by_contra past
  exact held (at?_eq_none_of_le (Nat.not_lt.1 past))

theorem Sound.freeSlots_eq (sound : p.Sound) :
    p.freeSlots = (List.range p.slots).filter fun slot => (p.at? slot).isNone := by
  refine List.filter_congr fun slot member => ?_
  have inside := List.mem_range.1 member
  rw [← Option.not_isSome, ← sound.isUsed_eq, isUsed]
  simp [inside]

/-- **One free slot less** is counted when one slot is filled and the others stay as they are. -/
theorem Sound.freeCount_filled (before : p.Sound) (after : q.Sound) (same : q.slots = p.slots)
    (inside : slot < p.slots) (free : p.at? slot = none) (filled : q.at? slot ≠ none)
    (others : ∀ other, other ≠ slot → q.at? other = p.at? other) :
    q.freeCount + 1 = p.freeCount := by
  have listed : slot ∈ p.freeSlots := by
    rw [before.freeSlots_eq, List.mem_filter, List.mem_range]
    exact ⟨inside, by rw [free]; rfl⟩
  have left : q.freeSlots = p.freeSlots.erase slot := by
    rw [before.freeSlots_eq, after.freeSlots_eq, same,
      List.Nodup.erase_eq_filter (List.nodup_range.filter _), List.filter_filter]
    refine List.filter_congr fun other _ => ?_
    by_cases here : other = slot
    · subst here
      simpa [Option.isSome_iff_ne_none] using filled
    · rw [others other here]
      simp [here]
  have one := List.length_pos_of_mem listed
  rw [freeCount, freeCount, left, List.length_erase_of_mem listed]
  omega

section

variable (alters : p.Alters q slot entry)

include alters

theorem Alters.slots : q.slots = p.slots := by
  rw [Page.slots, Page.slots, alters.size, alters.schema]

theorem Alters.others {other : Nat} (apart : other ≠ slot) : q.at? other = p.at? other := by
  rw [alters.at?, if_neg apart]

theorem Alters.isUsed (sound : p.Sound) {other : Nat} (apart : other ≠ slot) :
    q.isUsed other = p.isUsed other := by
  rw [alters.sound.isUsed_eq, sound.isUsed_eq, alters.others apart]

end

theorem slotBytes_image {image : Image} (size : image.size = p.image.size) (slot : Nat) :
    slotBytes { p with image } slot = image.slice (p.slotOffset slot) p.schema.rowBytes := by
  rw [slotBytes, slotOffset, slots_image size, ← slotOffset]

/-! ## Looking -/

/-- **Getting** a row looks the slot up in the map. -/
theorem Sound.get_eq (sound : p.Sound) (slot : Nat) :
    p.get slot =
      match p.at? slot with
      | some values => .ok ⟨some ⟨p.id, slot⟩, values⟩
      | none => .error (if p.slots ≤ slot then .badSlot slot (p.slots - 1)
          else .rowNotFound ⟨p.id, slot⟩) := by
  cases held : p.at? slot with
  | some values => exact get_eq_ok_iff.2 ⟨values, held, rfl⟩
  | none =>
      have unused : p.isUsed slot = false := by rw [sound.isUsed_eq, held]; rfl
      unfold Page.get checkUsed
      by_cases past : p.slots ≤ slot
      · simp only [if_pos past]
      · have free : p.image.bit slot = false := by
          simpa [isUsed, Nat.not_le.1 past] using unused
        simp only [if_neg past, free, Bool.false_eq_true, if_false]

/-! ## Filling a slot -/

/-- The lowest slot that holds nothing. -/
structure LeastFree (p : Page) (slot : Nat) : Prop where
  inside : slot < p.slots
  free : p.at? slot = none
  below : ∀ lower, lower < slot → p.at? lower ≠ none

/-- `q` is `p` with values in one more slot. -/
structure Puts (p q : Page) (slot : Nat) (values : List Value) (bytes : List UInt8) : Prop where
  alters : p.Alters q slot (some values)
  got : q.get slot = .ok ⟨some ⟨p.id, slot⟩, values⟩
  count : q.freeCount + 1 = p.freeCount
  stored : q.slotBytes slot = bytes
  used : ∀ other, other ≠ slot → q.isUsed other = p.isUsed other
  bytes : ∀ other, other < p.slots → other ≠ slot → q.slotBytes other = p.slotBytes other

/-- How an insert of values can end, and what it leaves. -/
inductive Inserted (p : Page) (values : List Value) : Except Fault RecordId × Page → Prop where
  | put {q : Page} {slot : Nat} {bytes : List UInt8} (encoded : p.schema.encode values = .ok bytes)
      (least : p.LeastFree slot) (puts : p.Puts q slot values bytes) :
      Inserted p values (.ok ⟨p.id, slot⟩, q)
  | full {bytes : List UInt8} (encoded : p.schema.encode values = .ok bytes)
      (empty : p.freeCount = 0) : Inserted p values (.error (.pageFull p.id), p)
  | refused {fault : Fault} (refused : p.schema.encode values = .error fault) :
      Inserted p values (.error fault, p)

theorem Sound.inserted (sound : p.Sound) (values : List Value) :
    p.Inserted values (PageAction.insert values p) := by
  rw [PageAction.insert_apply]
  rcases p.insert_cases values with ⟨fault, refused, same⟩ | ⟨bytes, encoded, ⟨full, same⟩ |
    ⟨slot, inside, free, lowest, same⟩⟩
  · rw [same]
    exact .refused refused
  · rw [same]
    exact .full encoded (freeCount_eq_zero_iff.2 fun slot inside =>
      isUsed_iff.2 ⟨inside, full slot inside⟩)
  · obtain ⟨-, -, -, -, alters⟩ := sound.insert same
    have width := Schema.encode_length encoded
    have absent : p.at? slot = none := by simp [at?, isUsed, free]
    have held : _ = some values := (alters.at? slot).trans (if_pos rfl)
    rw [same]
    refine .put encoded ⟨inside, absent, fun lower before => ?_⟩
      ⟨alters, ?_, ?_, ?_, fun other apart => alters.isUsed sound apart,
        fun other within apart => ?_⟩
    · rw [← Option.isSome_iff_ne_none, ← sound.isUsed_eq, isUsed_iff]
      exact ⟨before.trans inside, lowest lower before⟩
    · exact get_eq_ok_iff.2 ⟨values, held, rfl⟩
    · exact sound.freeCount_filled alters.sound alters.slots inside absent
        (by rw [held]; exact Option.some_ne_none _)
        fun other apart => alters.others apart
    · rw [slotBytes_image alters.size, slice_put_same inside width]
    · rw [slotBytes_image alters.size, slice_put_apart inside width within apart]

/-- Only a full page is answered to be full. -/
theorem Inserted.pageFull_iff {run : Except Fault RecordId × Page}
    (inserted : p.Inserted values run) :
    run.1 = .error (.pageFull p.id) ↔
      (∃ bytes, p.schema.encode values = .ok bytes) ∧ p.freeCount = 0 := by
  cases inserted with
  | put encoded least puts =>
      have room := puts.count
      exact ⟨nofun, fun ⟨_, zero⟩ => by omega⟩
  | full encoded empty => exact ⟨fun _ => ⟨⟨_, encoded⟩, empty⟩, fun _ => rfl⟩
  | refused refused =>
      refine ⟨fun same => ?_, fun ⟨⟨_, encoded⟩, _⟩ => ?_⟩
      · cases same
        rcases Schema.encode_error refused with ⟨_, -, other⟩ | ⟨-, _, -, other⟩ <;> cases other
      · cases encoded.symm.trans refused

theorem Inserted.valid {run : Except Fault RecordId × Page} (inserted : p.Inserted values run)
    (valid : p.Valid) : run.2.Valid := by
  cases inserted with
  | put _ _ puts => exact puts.alters.sound.load
  | full _ _ => exact valid
  | refused _ => exact valid

/-! ## Freeing a slot -/

/-- `q` is `p` with nothing in one slot. -/
structure Frees (p q : Page) (slot : Nat) : Prop where
  alters : p.Alters q slot none
  count : q.freeCount = p.freeCount + 1
  bits : ∀ i, q.image.bit i = if i = slot then false else p.image.bit i
  bytes : ∀ other, q.slotBytes other = p.slotBytes other

/-- How a delete can end, and what it leaves. -/
inductive Deleted (p : Page) (id : RecordId) : Except Fault Unit × Page → Prop where
  | freed {q : Page} (own : id.page = p.id) (held : p.at? id.slot ≠ none)
      (frees : p.Frees q id.slot) : Deleted p id (.ok (), q)
  | foreign (apart : id.page ≠ p.id) : Deleted p id (.error (.rowNotFound id), p)
  | past (own : id.page = p.id) (past : p.slots ≤ id.slot) :
      Deleted p id (.error (.badSlot id.slot (p.slots - 1)), p)
  | empty (own : id.page = p.id) (inside : id.slot < p.slots) (free : p.at? id.slot = none) :
      Deleted p id (.error (.rowNotFound id), p)

theorem Sound.deleted (sound : p.Sound) (id : RecordId) :
    p.Deleted id (PageAction.delete id p) := by
  rw [PageAction.delete_apply]
  rcases p.delete_cases id with ⟨apart, same⟩ | ⟨own, ⟨past, same⟩ | ⟨inside, ⟨free, same⟩ |
    ⟨occupied, same⟩⟩⟩
  · rw [same]
    exact .foreign apart
  · rw [same]
    exact .past own past
  · rw [same]
    exact .empty own inside (by simp [at?, isUsed, free])
  · obtain ⟨-, used, alters⟩ := sound.delete same
    have held : p.at? id.slot ≠ none := Option.isSome_iff_ne_none.1 (sound.isSome_at?.2 used)
    have gone : _ = none := (alters.at? id.slot).trans (if_pos rfl)
    rw [same]
    refine .freed own held ⟨alters, ?_, bit_clear inside, fun other => ?_⟩
    · exact (alters.sound.freeCount_filled sound alters.slots.symm (alters.slots ▸ inside) gone held
        fun other apart => (alters.others apart).symm).symm
    · rw [slotBytes_image alters.size, Image.slice_setBit (bit_before inside)]
      rfl

theorem Deleted.valid {id : RecordId} {run : Except Fault Unit × Page} (deleted : p.Deleted id run)
    (valid : p.Valid) : run.2.Valid := by
  cases deleted with
  | freed _ _ frees => exact frees.alters.sound.load
  | foreign _ => exact valid
  | past _ _ => exact valid
  | empty _ _ _ => exact valid

/-! ## The page as a map -/

/-- **A page is a partial map** from its slots, which a row id can all address, to lists of
values.  Occupancy, the number of free slots, single rows and all rows together are read off the
map.  An insert of values that can be stored fills the lowest free slot and fails exactly if there
is none; a delete frees the slot it names, if a row is there.  Everything else stays as it is,
and every call that fails leaves the page. -/
theorem maps_slots (valid : p.Valid) :
    p.slots ≤ slotLimit ∧
      (∀ slot, p.at? slot ≠ none → slot < p.slots) ∧
      (∀ slot, p.isUsed slot = (p.at? slot).isSome) ∧
      p.freeCount = ((List.range p.slots).filter fun slot => (p.at? slot).isNone).length ∧
      (∀ slot, p.get slot =
        match p.at? slot with
        | some values => .ok ⟨some ⟨p.id, slot⟩, values⟩
        | none => .error (if p.slots ≤ slot then .badSlot slot (p.slots - 1)
            else .rowNotFound ⟨p.id, slot⟩)) ∧
      p.rows = .ok ((List.range p.slots).filterMap fun slot =>
        (p.at? slot).map fun values => ⟨some ⟨p.id, slot⟩, values⟩) ∧
      (∀ values, p.Inserted values (PageAction.insert values p) ∧
        ((PageAction.insert values p).1 = .error (.pageFull p.id) ↔
          (∃ bytes, p.schema.encode values = .ok bytes) ∧ p.freeCount = 0) ∧
        (PageAction.insert values p).2.Valid) ∧
      ∀ id, p.Deleted id (PageAction.delete id p) ∧ (PageAction.delete id p).2.Valid := by
  have sound := valid_iff_sound.1 valid
  refine ⟨sound.addressed, fun slot => lt_of_at?, sound.isUsed_eq,
    congrArg List.length sound.freeSlots_eq, sound.get_eq, sound.rows_eq,
    fun values => ?_, fun id => ?_⟩
  · have inserted := sound.inserted values
    exact ⟨inserted, inserted.pageFull_iff, inserted.valid valid⟩
  · have deleted := sound.deleted id
    exact ⟨deleted, deleted.valid valid⟩

/-- Three slots for numbers; the row in the first has been deleted, and there are other bytes
behind the last slot. -/
def oneDeleted : Page :=
  ⟨⟨⟨1⟩, 0⟩, ⟨[⟨"n", .int⟩]⟩, #[2, 7, 0, 0, 0, 8, 0, 0, 0, 0, 0, 0, 0, 9, 9, 9], none⟩

/-- The slot of the deleted row is used again. -/
theorem maps_slots_reused :
    oneDeleted.Valid ∧ ∃ q, PageAction.insert [.int 9] oneDeleted = (.ok ⟨oneDeleted.id, 0⟩, q) ∧
      q.get 0 = .ok ⟨some ⟨oneDeleted.id, 0⟩, [.int 9]⟩ ∧ q.freeCount = 1 ∧
      q.slotBytes 1 = [8, 0, 0, 0] ∧
      (PageAction.delete ⟨oneDeleted.id, 0⟩ oneDeleted).2 = oneDeleted := by
  have valid : oneDeleted.Valid := by cbv
  have absent : oneDeleted.at? 0 = none := by cbv
  have stored : oneDeleted.schema.encode [.int 9] = .ok [9, 0, 0, 0] := by cbv
  obtain ⟨-, -, -, -, -, -, inserts, deletes⟩ := maps_slots valid
  obtain ⟨inserted, -, -⟩ := inserts [.int 9]
  obtain ⟨deleted, -⟩ := deletes ⟨oneDeleted.id, 0⟩
  refine ⟨valid, ?_⟩
  generalize PageAction.insert [.int 9] oneDeleted = run at inserted ⊢
  cases inserted with
  | @put q slot bytes encoded least puts =>
      obtain rfl : slot = 0 := by
        by_contra later
        exact least.below 0 (Nat.pos_of_ne_zero later) absent
      have count : q.freeCount + 1 = 2 := puts.count.trans (by cbv)
      refine ⟨q, rfl, puts.got, by omega, ?_, ?_⟩
      · rw [puts.bytes 1 (by decide) (by decide)]
        cbv
      · generalize PageAction.delete ⟨oneDeleted.id, 0⟩ oneDeleted = run at deleted ⊢
        cases deleted with
        | freed _ held _ => exact absurd absent held
        | foreign _ => rfl
        | past _ _ => rfl
        | empty _ _ _ => rfl
  | full encoded empty => exact absurd empty (by cbv)
  | refused refused => cases stored.symm.trans refused

end Page

end RowStore
