/-
# RowStore.Proofs.Page.Contents -- a page as a map from slots to rows

`at?` is what a page holds: the values in each occupied slot.  A `Sound` page is one
that `load` accepts (`load_eq_ok_iff`).  An insert and a delete each change the
contents in one slot and keep everything else about the page, soundness included;
`Alters` says that once for both.  What a scan reads off a page is its contents in the
order of the slots (`rows_eq`).

That other slots keep their values rests on the layout: the bit of a slot lies in the
bitmap, and the bytes of two slots do not meet.
-/
import RowStore.Page

namespace RowStore

set_option autoImplicit false

namespace Page

/-- The values in a slot that is occupied. -/
def at? (p : Page) (slot : Nat) : Option (List Value) :=
  if p.isUsed slot then (p.values slot).toOption else none

/-- What makes an image a page. -/
structure Sound (p : Page) : Prop where
  wide : p.schema.rowBytes ≠ 0
  roomy : p.slots ≠ 0
  addressed : p.slots ≤ slotLimit
  tidy : ∀ i, p.slots ≤ i → i < bitmapBytes p.slots * 8 → p.image.bit i = false
  readable : ∀ slot, p.isUsed slot = true → ∃ values, p.values slot = .ok values

variable {p q : Page}

theorem isUsed_iff {slot : Nat} : p.isUsed slot = true ↔ slot < p.slots ∧ p.image.bit slot = true := by
  simp [isUsed]

theorem mem_usedSlots {slot : Nat} : slot ∈ p.usedSlots ↔ p.isUsed slot = true := by
  simp [usedSlots, isUsed_iff]

theorem at?_eq_none_of_le {slot : Nat} (past : p.slots ≤ slot) : p.at? slot = none := by
  have unused : p.isUsed slot = false := by simp [isUsed, Nat.not_lt.2 past]
  simp [at?, unused]

/-! ## Reading an image -/

theorem strayBit?_eq_none_iff :
    p.strayBit? = none ↔
      ∀ i, p.slots ≤ i → i < bitmapBytes p.slots * 8 → p.image.bit i = false := by
  have fits := le_bitmapBytes p.slots
  have range : ∀ i, i ∈ List.range' p.slots (bitmapBytes p.slots * 8 - p.slots) ↔
      p.slots ≤ i ∧ i < bitmapBytes p.slots * 8 := by
    intro i
    rw [List.mem_range'_1]
    omega
  unfold strayBit?
  rw [List.find?_eq_none]
  constructor
  · intro clear i first last
    simpa using clear i ((range i).2 ⟨first, last⟩)
  · intro clear i member
    obtain ⟨first, last⟩ := (range i).1 member
    simp [clear i first last]

theorem badSlot?_eq_none_iff :
    p.badSlot? = none ↔ ∀ slot, p.isUsed slot = true → ∃ values, p.values slot = .ok values := by
  unfold badSlot?
  rw [List.findSome?_eq_none_iff]
  refine forall_congr' fun slot => ?_
  rw [mem_usedSlots]
  refine imp_congr_right fun _ => ?_
  cases p.values slot <;> simp

/-- **Loading** accepts exactly the images of sound pages, and gives clean ones. -/
theorem load_eq_ok_iff {id : PageId} {schema : Schema} {image : Image} :
    Page.load id schema image = .ok p ↔ p = ⟨id, schema, image, none⟩ ∧ p.Sound := by
  unfold Page.load
  simp only
  constructor
  · intro loaded
    repeat' split at loaded
    all_goals try cases loaded
    rename_i wide roomy addressed _ stray _ bad
    exact ⟨rfl, wide, roomy, Nat.not_lt.1 addressed, strayBit?_eq_none_iff.1 stray,
      badSlot?_eq_none_iff.1 bad⟩
  · rintro ⟨rfl, sound⟩
    have addressed := Nat.not_lt.2 sound.addressed
    have wide := sound.wide
    have roomy := sound.roomy
    have stray := strayBit?_eq_none_iff.2 sound.tidy
    have bad := badSlot?_eq_none_iff.2 sound.readable
    simp only [slots] at addressed roomy
    simp only [wide, roomy, addressed, stray, bad, if_false]

/-- An image with room for rows of the schema is refused only for what is in it. -/
theorem load_error {id : PageId} {schema : Schema} {image : Image} {fault : Fault}
    (wide : schema.rowBytes ≠ 0) (roomy : slotCount image.size schema.rowBytes ≠ 0)
    (addressed : slotCount image.size schema.rowBytes ≤ slotLimit)
    (failed : Page.load id schema image = .error fault) : ∃ cause, fault = .corruptPage id cause := by
  unfold Page.load at failed
  simp only [if_neg wide, if_neg roomy, if_neg (Nat.not_lt.2 addressed)] at failed
  repeat' split at failed
  all_goals cases failed
  all_goals exact ⟨_, rfl⟩

/-- A sound page that is loaded again from its image is the page without its mark. -/
theorem Sound.load (sound : p.Sound) : Page.load p.id p.schema p.image = .ok (p.withMark none) :=
  load_eq_ok_iff.2 ⟨rfl, sound.wide, sound.roomy, sound.addressed, sound.tidy, sound.readable⟩

theorem Sound.withMark (sound : p.Sound) (mark : Option TxnId) : (p.withMark mark).Sound :=
  ⟨sound.wide, sound.roomy, sound.addressed, sound.tidy, sound.readable⟩

/-- An image of zeros with room for a row is a page without rows. -/
theorem sound_zeros {schema : Schema} {size : Nat} (id : PageId) (wide : schema.rowBytes ≠ 0)
    (roomy : slotCount size schema.rowBytes ≠ 0)
    (addressed : slotCount size schema.rowBytes ≤ slotLimit) :
    Sound ⟨id, schema, Image.zeros size, none⟩ := by
  refine ⟨wide, ?_, ?_, fun i _ _ => Image.bit_zeros size i, fun slot used => ?_⟩
  · simpa [slots] using roomy
  · simpa [slots] using addressed
  · rw [isUsed_iff, Image.bit_zeros] at used
    cases used.2

theorem at?_zeros (id : PageId) (schema : Schema) (size slot : Nat) :
    at? ⟨id, schema, Image.zeros size, none⟩ slot = none := by
  simp [at?, isUsed]

/-! ## The layout -/

/-- The slots of a page end within it. -/
theorem slotOffset_add_le {slot : Nat} (inside : slot < p.slots) :
    p.slotOffset slot + p.schema.rowBytes ≤ p.image.size := by
  have fits := layout_fits p.image.size p.schema.rowBytes
  have step : (slot + 1) * p.schema.rowBytes ≤ p.slots * p.schema.rowBytes :=
    Nat.mul_le_mul_right _ inside
  rw [Nat.add_mul, Nat.one_mul] at step
  unfold slotOffset
  unfold slots at step ⊢
  omega

/-- The bit of a slot lies before all slots. -/
theorem bit_before {slot other : Nat} (inside : slot < p.slots) : slot / 8 < p.slotOffset other := by
  unfold slotOffset bitmapBytes
  omega

theorem slotOffset_apart {slot other : Nat} (apart : other ≠ slot) :
    p.slotOffset other + p.schema.rowBytes ≤ p.slotOffset slot ∨
      p.slotOffset slot + p.schema.rowBytes ≤ p.slotOffset other := by
  unfold slotOffset
  rcases Nat.lt_or_gt_of_ne apart with before | after
  · have step : (other + 1) * p.schema.rowBytes ≤ slot * p.schema.rowBytes :=
      Nat.mul_le_mul_right _ before
    rw [Nat.add_mul, Nat.one_mul] at step
    omega
  · have step : (slot + 1) * p.schema.rowBytes ≤ other * p.schema.rowBytes :=
      Nat.mul_le_mul_right _ after
    rw [Nat.add_mul, Nat.one_mul] at step
    omega

/-! ## Changing one slot -/

/-- `q` is `p` with other contents in one slot. -/
structure Alters (p q : Page) (slot : Nat) (entry : Option (List Value)) : Prop where
  id : q.id = p.id
  schema : q.schema = p.schema
  size : q.image.size = p.image.size
  mark : q.mark = p.mark
  at? : ∀ other, q.at? other = if other = slot then entry else p.at? other
  sound : q.Sound

section

variable {image : Image} (size : image.size = p.image.size)

include size

theorem slots_image : Page.slots { p with image } = p.slots := by
  rw [slots, slots, size]

theorem values_image (slot : Nat) : Page.values { p with image } slot =
    p.schema.decode (image.slice (p.slotOffset slot) p.schema.rowBytes) := by
  rw [values_eq, slotBytes, slotOffset, slots_image size, ← slotOffset]

theorem isUsed_image (slot : Nat) : Page.isUsed { p with image } slot =
    (decide (slot < p.slots) && image.bit slot) := by
  rw [isUsed, slots_image size]

end

/-- A new image in which one bit is set as wanted and the bytes of all other slots are
kept alters the page in that slot. -/
theorem Sound.alters (sound : p.Sound) {slot : Nat} {image : Image} (used : Bool)
    {entry : Option (List Value)} (inside : slot < p.slots) (size : image.size = p.image.size)
    (bits : ∀ i, i < bitmapBytes p.slots * 8 →
      image.bit i = if i = slot then used else p.image.bit i)
    (bytes : ∀ other, other < p.slots → other ≠ slot →
      image.slice (p.slotOffset other) p.schema.rowBytes = p.slotBytes other)
    (stored : if used then ∃ values, entry = some values ∧
        p.schema.decode (image.slice (p.slotOffset slot) p.schema.rowBytes) = .ok values
      else entry = none) :
    p.Alters { p with image } slot entry := by
  have fits := le_bitmapBytes p.slots
  have slots := slots_image size
  have values := values_image size
  have elsewhere : ∀ other, other ≠ slot → Page.isUsed { p with image } other = p.isUsed other ∧
      (other < p.slots → Page.values { p with image } other = p.values other) := by
    intro other apart
    constructor
    · rw [isUsed_image size, Page.isUsed]
      by_cases within : other < p.slots
      · simp [within, bits other (by omega), apart]
      · simp [within]
    · intro within
      rw [values, values_eq, bytes other within apart]
  have here : Page.isUsed { p with image } slot = used := by
    rw [isUsed_image size, bits slot (by omega)]
    simp [inside]
  refine ⟨rfl, rfl, size, rfl, fun other => ?_, sound.wide, ?_, ?_, ?_, ?_⟩
  · by_cases same : other = slot
    · subst same
      rw [if_pos rfl, Page.at?, here]
      cases used with
      | false => simpa using stored.symm
      | true =>
          obtain ⟨found, rfl, decoded⟩ := by simpa using stored
          simp [values, decoded, Except.toOption]
    · rw [if_neg same, Page.at?, Page.at?, (elsewhere other same).1]
      by_cases occupied : p.isUsed other = true
      · rw [(elsewhere other same).2 (isUsed_iff.1 occupied).1]
      · simp [occupied]
  · rw [slots]
    exact sound.roomy
  · rw [slots]
    exact sound.addressed
  · rw [slots]
    intro i first last
    rw [bits i last, if_neg (by omega)]
    exact sound.tidy i first last
  · intro other occupied
    by_cases same : other = slot
    · subst same
      rw [here] at occupied
      subst occupied
      obtain ⟨found, -, decoded⟩ := by simpa using stored
      exact ⟨found, by rw [values, decoded]⟩
    · rw [(elsewhere other same).1] at occupied
      rw [(elsewhere other same).2 (isUsed_iff.1 occupied).1]
      exact sound.readable other occupied

/-- The runs of an insert: values without a stored form, a page without a free slot, or else the
bytes stand in the lowest free slot and its bit is set. -/
theorem insert_cases (p : Page) (values : List Value) :
    (∃ fault, p.schema.encode values = .error fault ∧ p.insert values = .error fault) ∨
      ∃ bytes, p.schema.encode values = .ok bytes ∧
        ((∀ slot, slot < p.slots → p.image.bit slot = true) ∧
            p.insert values = .error (.pageFull p.id) ∨
          ∃ slot, slot < p.slots ∧ p.image.bit slot = false ∧
            (∀ lower, lower < slot → p.image.bit lower = true) ∧
            p.insert values = .ok (⟨p.id, slot⟩,
              { p with image := (p.image.overwrite (p.slotOffset slot) bytes).setBit slot true })) := by
  unfold Page.insert
  cases encoded : p.schema.encode values with
  | error fault => exact Or.inl ⟨fault, rfl, rfl⟩
  | ok bytes =>
      refine Or.inr ⟨bytes, rfl, ?_⟩
      cases found : (List.range p.slots).find? fun slot => !p.image.bit slot with
      | none =>
          refine Or.inl ⟨fun slot inside => ?_, rfl⟩
          simpa using List.find?_eq_none.1 found slot (List.mem_range.2 inside)
      | some slot =>
          refine Or.inr ⟨slot, List.mem_range.1 (List.mem_of_find?_eq_some found), ?_, ?_, rfl⟩
          · simpa using List.find?_some found
          · intro lower before
            rw [List.find?_range_eq_some] at found
            simpa using found.2.2 lower before

/-- An insert changes the image only. -/
theorem insert_image {values : List Value} {id : RecordId} (done : p.insert values = .ok (id, q)) :
    ∃ image, q = { p with image } := by
  rcases p.insert_cases values with ⟨_, -, failed⟩ | ⟨bytes, -, ⟨-, full⟩ | ⟨slot, -, -, -, run⟩⟩
  · cases failed.symm.trans done
  · cases full.symm.trans done
  · cases run.symm.trans done
    exact ⟨_, rfl⟩

section

variable {slot : Nat} {bytes : List UInt8} (inside : slot < p.slots)
  (width : bytes.length = p.schema.rowBytes)

include inside width

/-- Bytes that are put into a slot stand there. -/
theorem slice_put_same :
    ((p.image.overwrite (p.slotOffset slot) bytes).setBit slot true).slice (p.slotOffset slot)
      p.schema.rowBytes = bytes := by
  have ends := slotOffset_add_le inside
  rw [Image.slice_setBit (bit_before inside), ← width, Image.slice_overwrite_same (by omega)]

/-- Bytes that are put into a slot leave those of the others. -/
theorem slice_put_apart {other : Nat} (within : other < p.slots) (apart : other ≠ slot) :
    ((p.image.overwrite (p.slotOffset slot) bytes).setBit slot true).slice (p.slotOffset other)
      p.schema.rowBytes = p.slotBytes other := by
  rw [Image.slice_setBit (bit_before inside), Image.slice_overwrite_apart (slotOffset_add_le within)]
  · rfl
  · rw [width]
    exact slotOffset_apart apart

/-- Bytes that are put into a slot leave the bits of the others. -/
theorem bit_put {i : Nat} (last : i < bitmapBytes p.slots * 8) :
    ((p.image.overwrite (p.slotOffset slot) bytes).setBit slot true).bit i =
      if i = slot then true else p.image.bit i := by
  have ends := slotOffset_add_le inside
  have front : slot / 8 < p.slotOffset slot := bit_before inside
  have before : i / 8 < p.slotOffset slot := by
    unfold slotOffset
    omega
  rw [Image.bit_setBit (by rw [Image.size_overwrite]; omega), Image.bit_overwrite (by omega) before]

end

/-- **Insert** puts the values into the lowest free slot. -/
theorem Sound.insert (sound : p.Sound) {values : List Value} {id : RecordId}
    (done : p.insert values = .ok (id, q)) :
    id.page = p.id ∧ id.slot < p.slots ∧ p.image.bit id.slot = false ∧
      (∀ lower, lower < id.slot → p.image.bit lower = true) ∧
      p.Alters q id.slot (some values) := by
  rcases p.insert_cases values with ⟨_, -, refused⟩ | ⟨bytes, encoded, ⟨-, full⟩ |
    ⟨slot, inside, free, lowest, same⟩⟩
  · cases done.symm.trans refused
  · cases done.symm.trans full
  · cases done.symm.trans same
    have width := Schema.encode_length encoded
    refine ⟨rfl, inside, free, lowest, sound.alters true inside (by simp) ?_ ?_ ?_⟩
    · exact fun i last => bit_put inside width last
    · exact fun other within apart => slice_put_apart inside width within apart
    · refine ⟨values, rfl, ?_⟩
      rw [slice_put_same inside width]
      exact Schema.decode_encode encoded

theorem Sound.isSome_at? (sound : p.Sound) {slot : Nat} :
    (p.at? slot).isSome = true ↔ p.isUsed slot = true := by
  unfold at?
  cases used : p.isUsed slot with
  | false => simp
  | true =>
      obtain ⟨values, found⟩ := sound.readable slot used
      simp [found, Except.toOption]

theorem freeCount_eq_zero_iff :
    p.freeCount = 0 ↔ ∀ slot, slot < p.slots → p.isUsed slot = true := by
  unfold freeCount freeSlots
  rw [List.length_eq_zero_iff, List.filter_eq_nil_iff]
  constructor
  · intro full slot inside
    have set := full slot (List.mem_range.2 inside)
    exact isUsed_iff.2 ⟨inside, by simpa using set⟩
  · intro full slot member
    have used := isUsed_iff.1 (full slot (List.mem_range.1 member))
    simp [used.2]

/-- An insert of values that fit fails only on a full page. -/
theorem insert_isOk {values : List Value} {bytes : List UInt8}
    (fits : p.schema.encode values = .ok bytes) (free : p.freeCount ≠ 0) :
    ∃ id stored, p.insert values = .ok (id, stored) := by
  rcases p.insert_cases values with ⟨_, refused, -⟩ | ⟨_, -, ⟨full, -⟩ | ⟨_, -, -, -, same⟩⟩
  · cases fits.symm.trans refused
  · exact absurd (freeCount_eq_zero_iff.2 fun slot inside =>
      isUsed_iff.2 ⟨inside, full slot inside⟩) free
  · exact ⟨_, _, same⟩

/-- The runs of a delete: the id is of another page, it names no slot or one without a row, or
else the bit of the slot is cleared. -/
theorem delete_cases (p : Page) (id : RecordId) :
    (id.page ≠ p.id ∧ p.delete id = .error (.rowNotFound id)) ∨
      id.page = p.id ∧
        (p.slots ≤ id.slot ∧ p.delete id = .error (.badSlot id.slot (p.slots - 1)) ∨
          id.slot < p.slots ∧
            (p.image.bit id.slot = false ∧ p.delete id = .error (.rowNotFound id) ∨
              p.image.bit id.slot = true ∧
                p.delete id = .ok { p with image := p.image.setBit id.slot false })) := by
  unfold Page.delete Page.checkUsed
  by_cases own : id.page = p.id
  · rw [if_neg (not_not_intro own)]
    refine Or.inr ⟨own, ?_⟩
    by_cases past : p.slots ≤ id.slot
    · exact Or.inl ⟨past, by rw [if_pos past]⟩
    · refine Or.inr ⟨by omega, ?_⟩
      rw [if_neg past]
      cases occupied : p.image.bit id.slot with
      | false => exact Or.inl ⟨rfl, by rw [← own]; rfl⟩
      | true => exact Or.inr ⟨rfl, rfl⟩
  · exact Or.inl ⟨own, if_pos own⟩

/-- A delete changes the image only. -/
theorem delete_image {id : RecordId} (done : p.delete id = .ok q) :
    ∃ image, q = { p with image } := by
  rcases p.delete_cases id with ⟨-, foreign⟩ | ⟨-, ⟨-, past⟩ | ⟨-, ⟨-, free⟩ | ⟨-, run⟩⟩⟩
  · cases foreign.symm.trans done
  · cases past.symm.trans done
  · cases free.symm.trans done
  · cases run.symm.trans done
    exact ⟨_, rfl⟩

/-- Clearing the bit of a slot clears no other bit of the image. -/
theorem bit_clear {slot : Nat} (inside : slot < p.slots) (i : Nat) :
    (p.image.setBit slot false).bit i = if i = slot then false else p.image.bit i := by
  have ends := slotOffset_add_le inside
  have byte : slot / 8 < p.slotOffset slot := bit_before inside
  exact Image.bit_setBit (by omega) i false

/-- **Delete** empties the slot that the id names, which was occupied. -/
theorem Sound.delete (sound : p.Sound) {id : RecordId} (done : p.delete id = .ok q) :
    id.page = p.id ∧ p.isUsed id.slot = true ∧ p.Alters q id.slot none := by
  rcases p.delete_cases id with ⟨-, foreign⟩ | ⟨own, ⟨-, past⟩ | ⟨inside, ⟨-, free⟩ |
    ⟨occupied, same⟩⟩⟩
  · cases done.symm.trans foreign
  · cases done.symm.trans past
  · cases done.symm.trans free
  · cases done.symm.trans same
    refine ⟨own, isUsed_iff.2 ⟨inside, occupied⟩, sound.alters false inside (by simp) ?_ ?_ rfl⟩
    · exact fun i _ => bit_clear inside i
    · exact fun other _ _ => Image.slice_setBit (bit_before inside) false

/-! ## Reading rows -/

theorem checkUsed_eq_ok_iff {slot : Nat} : p.checkUsed slot = .ok () ↔ p.isUsed slot = true := by
  unfold checkUsed
  rw [isUsed_iff]
  by_cases past : p.slots ≤ slot
  · simp [past, Nat.not_lt.2 past]
  · cases occupied : p.image.bit slot <;> simp [past, Nat.not_le.1 past]

/-- **Getting** the row in a slot gives what the page holds there, and nothing else. -/
theorem get_eq_ok_iff {slot : Nat} {row : Row} :
    p.get slot = .ok row ↔
      ∃ values, p.at? slot = some values ∧ row = ⟨some ⟨p.id, slot⟩, values⟩ := by
  unfold Page.get Page.at? readSlot
  cases checked : p.checkUsed slot with
  | error fault =>
      have free : p.isUsed slot ≠ true := fun used => by
        rw [checkUsed_eq_ok_iff.2 used] at checked
        cases checked
      simp [free]
  | ok =>
      rw [if_pos (checkUsed_eq_ok_iff.1 checked)]
      cases p.values slot <;> simp [Except.toOption, eq_comm]

/-- **The rows** of a sound page are its contents in the order of the slots. -/
theorem Sound.rows_eq (sound : p.Sound) :
    p.rows = .ok ((List.range p.slots).filterMap fun slot =>
      (p.at? slot).map fun values => ⟨some ⟨p.id, slot⟩, values⟩) := by
  have listed : ∀ slots : List Nat, (∀ slot ∈ slots, slot < p.slots) →
      (slots.filter p.image.bit).mapM p.readSlot =
        .ok (slots.filterMap fun slot =>
          (p.at? slot).map fun values => (⟨some ⟨p.id, slot⟩, values⟩ : Row)) := by
    intro slots
    induction slots with
    | nil => exact fun _ => rfl
    | cons slot rest ih =>
        intro inside
        have later := ih fun s member => inside s (List.mem_cons_of_mem _ member)
        have within := inside slot List.mem_cons_self
        cases occupied : p.image.bit slot with
        | false =>
            have absent : p.at? slot = none := by simp [Page.at?, isUsed, occupied]
            simp [occupied, absent, later]
        | true =>
            have used : p.isUsed slot = true := isUsed_iff.2 ⟨within, occupied⟩
            obtain ⟨values, found⟩ := sound.readable slot used
            have present : p.at? slot = some values := by
              simp [Page.at?, used, found, Except.toOption]
            have read : p.readSlot slot = .ok ⟨some ⟨p.id, slot⟩, values⟩ := by
              simp [readSlot, found]
            simp [occupied, present, List.mapM_cons, read, later, bind, Except.bind, pure,
              Except.pure]
  exact listed _ fun slot member => List.mem_range.1 member

end Page

end RowStore
