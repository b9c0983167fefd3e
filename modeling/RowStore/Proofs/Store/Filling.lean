/-
# RowStore.Proofs.Store.Filling -- rows that are stored one after the other

A row that is inserted takes the least id of which its transaction sees the slot free, on the
pages that there are or on the next one (`LeastFree`).  `Fills` says this of rows in a row, each
at its turn.  None of them takes the place of another, and what was stored stays
(`Fills.places`).

A table stays legible when a transaction inserts or deletes a row of it
(`Legible.insertRow`, `Legible.deleteRow`), so what a call does can be said of every call in a
sequence.
-/
import RowStore.Proofs.Store.FirstFit

namespace RowStore

set_option autoImplicit false

variable {file : TableFile} {id : RecordId} {values : List Value}

namespace Contents

variable {c d : Contents} {stored : List (List Value)}

/-- The least id of the table of which the slot is free. -/
structure LeastFree (c : Contents) (file : TableFile) (id : RecordId) : Prop where
  table : id.page.table = file.id
  slot : id.slot < file.slots
  free : c id = none
  least : ∀ other : RecordId, other.page.table = file.id → other.slot < file.slots →
    c other = none → id ≤ other

/-- A row that goes to a free slot takes the place of none. -/
theorem LeastFree.keeps {other : RecordId} {old : List Value} (first : c.LeastFree file id)
    (stored : c other = some old) : (Edit.insert id values).apply c other = some old := by
  refine (if_neg fun here => ?_).trans stored
  obtain rfl : other = id := here
  rw [first.free] at stored
  cases stored

/-- These rows are stored one after the other, each in the first slot that is free at its
turn. -/
inductive Fills (file : TableFile) : Contents → List (List Value) → Contents → Prop where
  | done (c : Contents) : Fills file c [] c
  | row {c d : Contents} {id : RecordId} {values : List Value} {rest : List (List Value)}
      (first : c.LeastFree file id) (later : Fills file ((Edit.insert id values).apply c) rest d) :
      Fills file c (values :: rest) d

/-- One more row, after the others. -/
theorem Fills.snoc (fills : Fills file c stored d) (last : d.LeastFree file id) :
    Fills file c (stored ++ [values]) ((Edit.insert id values).apply d) := by
  induction fills with
  | done c => exact .row last (.done _)
  | row first _ ih => exact .row first (ih last)

/-- Nothing happens to the rows of other tables. -/
theorem Fills.elsewhere (fills : Fills file c stored d) (apart : id.page.table ≠ file.id) :
    d id = c id := by
  induction fills with
  | done => rfl
  | row first _ ih =>
      rw [ih]
      refine Edit.apply_elsewhere (fun same => apart ?_) _ _
      rw [same]
      exact first.table

/-- **Places.**  Rows that are stored in free slots get a place each, no two of them the same,
and the rows that were there keep theirs. -/
theorem Fills.places (fills : Fills file c stored d) : ∃ places : List (RecordId × List Value),
    places.map Prod.snd = stored ∧ (places.map Prod.fst).Nodup ∧
      (∀ place ∈ places, place.1.page.table = file.id ∧ c place.1 = none) ∧
      ∀ id values, d id = some values ↔ c id = some values ∨ (id, values) ∈ places := by
  induction fills with
  | done c => exact ⟨[], rfl, .nil, nofun, by simp⟩
  | @row c d first values rest free _ ih =>
      obtain ⟨places, rfl, once, fresh, found⟩ := ih
      have here : (Edit.insert first values).apply c first = some values := if_pos rfl
      have away : ∀ id, id ≠ first → (Edit.insert first values).apply c id = c id :=
        fun id apart => if_neg apart
      have apart : ∀ place ∈ places, place.1 ≠ first := by
        intro place member same
        have none := (fresh place member).2
        rw [same, here] at none
        cases none
      refine ⟨(first, values) :: places, rfl, ?_, fun place member => ?_, fun id found_values => ?_⟩
      · refine List.nodup_cons.2 ⟨fun member => ?_, once⟩
        obtain ⟨place, listed, same⟩ := List.mem_map.1 member
        exact apart place listed same
      · rcases List.mem_cons.1 member with rfl | later
        · exact ⟨free.table, free.free⟩
        · obtain ⟨own, none⟩ := fresh place later
          rw [away _ (apart place later)] at none
          exact ⟨own, none⟩
      · rw [found, List.mem_cons, Prod.mk.injEq]
        by_cases same : id = first
        · subst same
          have gone : (id, found_values) ∉ places := fun member => apart _ member rfl
          have free := free.free
          rw [here, free]
          simp [gone, eq_comm]
        · simp [away id same, same]

end Contents

namespace Store

variable {txn owner : TxnId} {s mid after : Store}

/-- What is seen of the table lies on its pages. -/
theorem Legible.seen_inside (legible : s.Legible file) (seen : s.seen txn id = some values)
    (own : id.page.table = file.id) : id.page.number < s.pageCount file := by
  obtain ⟨⟨table, number⟩, slot⟩ := id
  obtain rfl : table = file.id := own
  by_contra past
  rw [seen_row legible.registered, legible.pageFor_of_le (Nat.not_lt.1 past)] at seen
  cases seen

/-! ## Calls that leave a table legible -/

theorem Legible.of_disk (legible : s.Legible file) (mirrored : after.Mirrored)
    (tables : s.SameTables after) (fits : after.wholePages file < PageFile.pageLimit) :
    after.Legible file := by
  refine ⟨mirrored, ?_, fits⟩
  rw [tables.catalog]
  exact legible.registered

/-- **A row that is inserted** gets the least free id.  The table stays legible, and no other
transaction sees the row. -/
theorem Legible.insertRow (legible : s.Legible file)
    (run : StoreAction.insertRow txn file.id values s = (.ok id, after)) :
    after.Legible file ∧ (s.seen txn).LeastFree file id ∧
      s.EditShows after txn (.insert id values) := by
  have ok := legible.mirrored.toOrderly
  have effects := effects_carryOut ok txn (.insert file.id values)
  simp only [carryOut, run] at effects
  have tables := sameTables_insertRow ok.pool run
  obtain ⟨allots, shows⟩ := legible.insert_allots run
  cases allots with
  | first free disk =>
      have whole : after.wholePages file = s.wholePages file := (views_congr disk file).1
      refine ⟨legible.of_disk (legible.mirrored.effects effects) tables (whole ▸ legible.fits),
        ⟨free.place.table, free.place.slot, free.free, fun other own inside none => ?_⟩, shows⟩
      by_cases counted : other.page.number < s.pageCount file
      · exact free.least other ⟨own, counted, inside⟩ none
      · have later : id.page.number < other.page.number :=
          Nat.lt_of_lt_of_le free.place.page (Nat.not_lt.1 counted)
        exact Or.inl (Or.inl (Or.inr ⟨free.place.table.trans own.symm, later⟩))
  | appended used new disk longer counted =>
      subst new
      have fits : after.wholePages file < PageFile.pageLimit := by
        have bound : after.pageCount file < PageFile.pageLimit :=
          Nat.mod_lt _ (by decide)
        rw [counted, legible.pageCount_eq] at bound
        omega
      refine ⟨legible.of_disk (legible.mirrored.effects effects) tables fits,
        ⟨rfl, Nat.pos_of_ne_zero legible.proper.roomy, ?_, fun other own inside none => ?_⟩, shows⟩
      · refine Option.eq_none_iff_forall_ne_some.2 fun old seen => ?_
        exact absurd (legible.seen_inside seen rfl) (Nat.lt_irrefl _)
      obtain ⟨⟨table, number⟩, slot⟩ := other
      obtain rfl : table = file.id := own
      have past : s.pageCount file ≤ number := by
        by_contra before
        have taken := used _ ⟨rfl, Nat.not_le.1 before, inside⟩
        rw [none] at taken
        cases taken
      rcases Nat.lt_or_eq_of_le past with later | rfl
      · exact Or.inl (Or.inl (Or.inr ⟨rfl, later⟩))
      · rcases Nat.eq_zero_or_pos slot with rfl | later
        · exact Or.inr rfl
        · exact Or.inl (Or.inr ⟨rfl, later⟩)

/-- **A row that is deleted** is not seen any more by its transaction.  The table stays
legible. -/
theorem Legible.deleteRow (legible : s.Legible file) {row : Row} (named : row.id? = some id)
    (own : id.page.table = file.id) (run : StoreAction.deleteRow txn row s = (.ok (), after)) :
    after.Legible file ∧ after.disk = s.disk ∧ (s.seen txn id).isSome = true ∧
      s.EditShows after txn (.delete id) := by
  have ok := legible.mirrored.toOrderly
  have effects := effects_carryOut ok txn (.delete row)
  have tables := sameTables_carryOut ok.pool txn (.delete row)
  simp only [carryOut, run] at effects tables
  have frees := legible.delete_frees named own run fun _ failed => by cases failed
  have whole : after.wholePages file = s.wholePages file := (views_congr frees.disk file).1
  exact ⟨legible.of_disk (legible.mirrored.effects effects) tables (whole ▸ legible.fits),
    frees.disk, frees.ok_iff.1 rfl, frees.freed rfl⟩

end Store

end RowStore
