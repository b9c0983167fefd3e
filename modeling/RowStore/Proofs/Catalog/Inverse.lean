/-
# RowStore.Proofs.Catalog.Inverse -- names and ids stand for each other

A catalog keeps two maps, from names to ids and from ids to names with their files, and
each registration may have to take something out of both: the table that had the name,
and the name that the table had.  `names_add` and `tables_add` say what a registration
does to each map, whatever the maps were before.

A catalog is `Paired` if the maps are inverse to each other and each file stands under
its own id.  Registering anything under any name keeps a catalog paired, so whatever is
registered and forgotten, in any order, names and ids stand for each other
(`names_inverse_ids`).
-/
import RowStore.Catalog
import Mathlib.Data.List.Induction
import Mathlib.Data.List.Nodup

namespace RowStore

set_option autoImplicit false

namespace Catalog

/-- The table of an id goes by the name of an id, and its file has that id. -/
structure Paired (c : Catalog) : Prop where
  named : ∀ name id, c.names.get? name = some id ↔
    ∃ entry, c.tables.get? id = some entry ∧ entry.name = name
  own : ∀ id entry, c.tables.get? id = some entry → entry.file.id = id

theorem paired_empty : empty.Paired := by
  refine ⟨fun name id => ?_, fun id entry listed => ?_⟩
  · constructor
    · intro known
      cases known
    · rintro ⟨entry, listed, -⟩
      cases listed
  · cases listed

variable {c : Catalog} {name : String} {id : TableId} {file : TableFile}

/-! ## Registering -/

theorem names_claimName (c : Catalog) (name : String) (id : TableId) :
    (c.claimName name id).names = c.names.insert name id := rfl

/-- Whose name is taken away is no longer listed. -/
theorem tables_claimName (c : Catalog) (name : String) (id other : TableId) :
    (c.claimName name id).tables.get? other =
      if other ≠ id ∧ c.names.get? name = some other then none else c.tables.get? other := by
  unfold claimName
  cases known : c.names.get? name with
  | none => simp
  | some old =>
      by_cases again : old = id
      · subst again
        have same : ¬ (other ≠ old ∧ some old = some other) := by
          rintro ⟨apart, held⟩
          exact apart (Option.some.inj held).symm
        rw [if_neg same]
        simp only [if_true]
      · by_cases here : other = old
        · subst here
          simp [again]
        · have apart : ¬ old = other := Ne.symm here
          simp [again, here, apart]

theorem tables_dropOldName (c : Catalog) (name : String) (id : TableId) :
    (c.dropOldName name id).tables = c.tables := by
  unfold dropOldName
  split
  · split <;> rfl
  · rfl

/-- The table's other name is no longer known. -/
theorem names_dropOldName (c : Catalog) (name : String) (id : TableId) (other : String) :
    (c.dropOldName name id).names.get? other =
      if other ≠ name ∧ (c.tables.get? id).map CatalogEntry.name = some other ∧
        c.names.get? other = some id then none else c.names.get? other := by
  unfold dropOldName
  cases listed : c.tables.get? id with
  | none => simp
  | some old =>
      by_cases goes : old.name ≠ name ∧ c.names.get? old.name = some id
      · by_cases here : other = old.name
        · subst here
          simp [goes]
        · have apart : ¬ old.name = other := Ne.symm here
          simp [goes, here, apart]
      · have stays : ¬ (other ≠ name ∧ some old.name = some other ∧
            c.names.get? other = some id) := by
          rintro ⟨apart, same, known⟩
          cases same
          exact goes ⟨apart, known⟩
        rw [Option.map_some, if_neg stays]
        simp only [if_neg goes]

/-- The name stands for the table, and no other name that the table had does. -/
theorem names_add (c : Catalog) (name : String) (file : TableFile) (other : String) :
    (c.add name file).names.get? other =
      if other = name then some file.id
      else if (c.tables.get? file.id).map CatalogEntry.name = some other ∧
        c.names.get? other = some file.id then none
      else c.names.get? other := by
  have listed : (c.claimName name file.id).tables.get? file.id = c.tables.get? file.id := by
    rw [tables_claimName, if_neg]
    rintro ⟨apart, -⟩
    exact apart rfl
  show ((c.claimName name file.id).dropOldName name file.id).names.get? other = _
  rw [names_dropOldName, listed, names_claimName, FinMap.get?_insert]
  by_cases own : other = name
  · simp [own]
  · simp [own]

/-- The table is listed with the name, and no other table that had the name is. -/
theorem tables_add (c : Catalog) (name : String) (file : TableFile) (other : TableId) :
    (c.add name file).tables.get? other =
      if other = file.id then some ⟨name, file⟩
      else if c.names.get? name = some other then none
      else c.tables.get? other := by
  show (((c.claimName name file.id).dropOldName name file.id).tables.insert file.id
    ⟨name, file⟩).get? other = _
  rw [FinMap.get?_insert, tables_dropOldName, tables_claimName]
  by_cases own : other = file.id
  · rw [if_pos own, if_pos own]
  · rw [if_neg own, if_neg own]
    simp [own]

/-- A name that is new takes nothing away. -/
theorem file_add_new {c : Catalog} {name : String} (new : c.names.get? name = none)
    (file : TableFile) (other : TableId) :
    (c.add name file).file other = if other = file.id then .ok file else c.file other := by
  rw [Catalog.file, Catalog.tables_add, new]
  by_cases own : other = file.id
  · simp [own]
  · simp [own, Catalog.file]

/-- In a paired catalog the name that a table had is the one that stands for it. -/
theorem Paired.names_add (paired : c.Paired) (name : String) (file : TableFile) (other : String) :
    (c.add name file).names.get? other =
      if other = name then some file.id
      else if c.names.get? other = some file.id then none
      else c.names.get? other := by
  have had : c.names.get? other = some file.id →
      (c.tables.get? file.id).map CatalogEntry.name = some other := by
    intro known
    obtain ⟨entry, listed, called⟩ := (paired.named other file.id).1 known
    rw [listed, Option.map_some, called]
  rw [Catalog.names_add]
  by_cases known : c.names.get? other = some file.id
  · simp [known, had known]
  · simp [known]

theorem Paired.add (paired : c.Paired) (name : String) (file : TableFile) :
    (c.add name file).Paired := by
  refine ⟨fun other id => ?_, fun id entry listed => ?_⟩
  · rw [paired.names_add, tables_add]
    by_cases own : other = name
    · -- The name is the new one: it stands for the new table alone.
      rw [if_pos own]
      by_cases here : id = file.id
      · rw [if_pos here]
        constructor
        · intro _
          exact ⟨⟨name, file⟩, rfl, own.symm⟩
        · intro _
          rw [here]
      · rw [if_neg here]
        constructor
        · intro same
          exact absurd (Option.some.inj same).symm here
        · rintro ⟨entry, listed, called⟩
          split at listed
          · cases listed
          · rename_i unclaimed
            exact absurd ((paired.named name id).2 ⟨entry, listed, called.trans own⟩) unclaimed
    · rw [if_neg own]
      by_cases here : id = file.id
      · -- The table is the new one: no other name stands for it.
        rw [if_pos here]
        constructor
        · intro known
          split at known
          · cases known
          · rename_i other_table
            exact absurd (here ▸ known) other_table
        · rintro ⟨entry, listed, called⟩
          cases listed
          exact absurd called.symm own
      · -- Neither is new: they stand for each other as before.
        have apart : ∀ held, c.names.get? other = some held →
            c.names.get? name = some id → held ≠ id := by
          rintro held known taken rfl
          obtain ⟨entry, listed, called⟩ := (paired.named other held).1 known
          obtain ⟨again, relisted, recalled⟩ := (paired.named name held).1 taken
          rw [listed] at relisted
          cases relisted
          exact own (called.symm.trans recalled)
        rw [if_neg here]
        constructor
        · intro known
          split at known
          · cases known
          · rw [if_neg fun taken => apart id known taken rfl]
            exact (paired.named other id).1 known
        · intro listed
          split at listed
          · obtain ⟨_, none, -⟩ := listed
            cases none
          · have known := (paired.named other id).2 listed
            rw [if_neg, known]
            rw [known]
            intro same
            exact here (Option.some.inj same)
  · rw [tables_add] at listed
    split at listed
    · rename_i here
      cases listed
      exact here.symm
    · split at listed
      · cases listed
      · exact paired.own id entry listed

/-! ## Looking up -/

theorem idOf_eq_ok_iff : c.idOf name = .ok id ↔ c.names.get? name = some id := by
  unfold idOf
  cases c.names.get? name <;> simp

theorem nameOf_eq_ok_iff :
    c.nameOf id = .ok name ↔ ∃ entry, c.tables.get? id = some entry ∧ entry.name = name := by
  unfold nameOf
  cases c.tables.get? id <;> simp

theorem file_eq_ok_iff :
    c.file id = .ok file ↔ ∃ entry, c.tables.get? id = some entry ∧ entry.file = file := by
  unfold Catalog.file
  cases c.tables.get? id <;> simp

theorem mem_ids : id ∈ c.ids ↔ ∃ entry, c.tables.get? id = some entry := by
  unfold ids
  rw [List.mem_mergeSort, FinMap.mem_keys]

/-- The ids are listed in ascending order, each once. -/
theorem ids_ascending (c : Catalog) : c.ids.Pairwise (· < ·) := by
  have sorted : c.ids.Pairwise fun a b => decide (a ≤ b) = true := by
    refine List.pairwise_mergeSort (fun a b d first second => ?_) (fun a b => ?_) _
    · simp only [decide_eq_true_eq] at first second ⊢
      exact UInt32.le_trans first second
    · simp only [Bool.or_eq_true, decide_eq_true_eq]
      exact UInt32.le_total a b
  have once : c.ids.Nodup := (List.mergeSort_perm _ _).nodup_iff.2 c.tables.keys_nodup
  refine (sorted.and once).imp ?_
  rintro a b ⟨below, apart⟩
  exact UInt32.lt_of_le_of_ne (of_decide_eq_true below) apart

/-! ## Any number of registrations -/

/-- What is done to a catalog. -/
inductive Change where
  | add (name : String) (file : TableFile)
  | clear

def change (c : Catalog) : Change → Catalog
  | .add name file => c.add name file
  | .clear => empty

/-- A new catalog after these changes. -/
def changed (changes : List Change) : Catalog := changes.foldl change empty

theorem Paired.change (paired : c.Paired) (step : Change) : (c.change step).Paired := by
  cases step with
  | add name file => exact paired.add name file
  | clear => exact paired_empty

theorem paired_changed (changes : List Change) : (changed changes).Paired := by
  induction changes using List.reverseRecOn with
  | nil => exact paired_empty
  | append_singleton changes step ih =>
      rw [changed, List.foldl_append]
      exact ih.change step

/-- **Names and ids are inverse to each other** after any registrations, under any names and
of any files.  Every id that is listed has a file, which is of that id, and what was just
registered is found under its name. -/
theorem names_inverse_ids (changes : List Change) :
    (∀ name id, (changed changes).idOf name = .ok id ↔ (changed changes).nameOf id = .ok name) ∧
    (∀ id, id ∈ (changed changes).ids ↔ ∃ name, (changed changes).nameOf id = .ok name) ∧
    (changed changes).ids.Pairwise (· < ·) ∧
    (∀ id ∈ (changed changes).ids, ∃ file,
      (changed changes).file id = .ok file ∧ file.id = id) ∧
    ∀ name file, (changed (changes ++ [.add name file])).idOf name = .ok file.id ∧
      (changed (changes ++ [.add name file])).file file.id = .ok file := by
  have paired := paired_changed changes
  refine ⟨fun name id => ?_, fun id => ?_, ids_ascending _, fun id member => ?_,
    fun name file => ?_⟩
  · rw [idOf_eq_ok_iff, nameOf_eq_ok_iff]
    exact paired.named name id
  · rw [mem_ids]
    constructor
    · rintro ⟨entry, listed⟩
      exact ⟨entry.name, nameOf_eq_ok_iff.2 ⟨entry, listed, rfl⟩⟩
    · rintro ⟨name, called⟩
      obtain ⟨entry, listed, -⟩ := nameOf_eq_ok_iff.1 called
      exact ⟨entry, listed⟩
  · obtain ⟨entry, listed⟩ := mem_ids.1 member
    exact ⟨entry.file, file_eq_ok_iff.2 ⟨entry, listed, rfl⟩, paired.own id entry listed⟩
  · have last : changed (changes ++ [.add name file]) = (changed changes).add name file := by
      rw [changed, List.foldl_append]
      rfl
    rw [last, idOf_eq_ok_iff, Catalog.names_add, file_eq_ok_iff, tables_add]
    exact ⟨if_pos rfl, ⟨name, file⟩, if_pos rfl, rfl⟩

end Catalog

end RowStore
