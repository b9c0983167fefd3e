/-
# RowStore.FinMap -- finite maps that remember the order of their keys

A `FinMap` is a list of pairs in which no key occurs twice.  `insert` replaces
the value of a present key in place and puts a new key last, so the order of
the keys is the order in which they were first inserted; `erase` closes the gap.
The view of a map is `get?`: `get?_insert` and `get?_erase` say what each
operation does to it; `mem_keys` and `mem_entries` tie the listed keys and pairs to
the view.
-/

namespace RowStore

set_option autoImplicit false

universe u v

/-- A finite map from `κ` to `ν`, its pairs in order of first insertion. -/
structure FinMap (κ : Type u) (ν : Type v) where
  entries : List (κ × ν)
  nodup : (entries.map Prod.fst).Nodup

namespace FinMap

variable {κ : Type u} {ν : Type v}

def empty : FinMap κ ν := ⟨[], List.nodup_nil⟩

instance : EmptyCollection (FinMap κ ν) := ⟨empty⟩

instance : Inhabited (FinMap κ ν) := ⟨empty⟩

/-- The keys, first inserted first. -/
def keys (m : FinMap κ ν) : List κ := m.entries.map Prod.fst

def values (m : FinMap κ ν) : List ν := m.entries.map Prod.snd

def size (m : FinMap κ ν) : Nat := m.entries.length

theorem keys_nodup (m : FinMap κ ν) : m.keys.Nodup := m.nodup

variable [DecidableEq κ]

/-- The value in the first pair of `k`. -/
@[specialize] def look (k : κ) : List (κ × ν) → Option ν
  | [] => none
  | e :: rest => if e.1 = k then some e.2 else look k rest

/-- Replace the value in the first pair of `k`, or put a new pair last. -/
@[specialize] def put (k : κ) (v : ν) : List (κ × ν) → List (κ × ν)
  | [] => [(k, v)]
  | e :: rest => if e.1 = k then (k, v) :: rest else e :: put k v rest

theorem map_fst_put (k : κ) (v : ν) (es : List (κ × ν)) :
    (put k v es).map Prod.fst =
      if k ∈ es.map Prod.fst then es.map Prod.fst else es.map Prod.fst ++ [k] := by
  induction es with
  | nil => simp [put]
  | cons e rest ih =>
      by_cases same : e.1 = k
      · simp [put, same]
      · have other : ¬ k = e.1 := fun h => same h.symm
        by_cases later : k ∈ rest.map Prod.fst <;> simp_all [put]

theorem nodup_put (k : κ) (v : ν) {es : List (κ × ν)} (distinct : (es.map Prod.fst).Nodup) :
    ((put k v es).map Prod.fst).Nodup := by
  rw [map_fst_put]
  split
  · exact distinct
  · rename_i absent
    exact List.nodup_append.2 ⟨distinct, by simp, by
      rintro a inside b last rfl
      simp only [List.mem_singleton] at last
      exact absent (last ▸ inside)⟩

@[inline] def get? (m : FinMap κ ν) (k : κ) : Option ν := look k m.entries

@[inline] def contains (m : FinMap κ ν) (k : κ) : Bool := (m.get? k).isSome

@[inline] def insert (m : FinMap κ ν) (k : κ) (v : ν) : FinMap κ ν :=
  ⟨put k v m.entries, nodup_put k v m.nodup⟩

@[inline] def erase (m : FinMap κ ν) (k : κ) : FinMap κ ν :=
  ⟨m.entries.filter fun e => decide (e.1 ≠ k),
    (List.filter_sublist.map Prod.fst).nodup m.nodup⟩

/-! ## Laws of the view -/

@[simp] theorem get?_empty (k : κ) : (∅ : FinMap κ ν).get? k = none := rfl

theorem look_put (k j : κ) (v : ν) (es : List (κ × ν)) :
    look j (put k v es) = if j = k then some v else look j es := by
  induction es with
  | nil => by_cases h : k = j <;> simp [put, look, h, eq_comm]
  | cons e rest ih =>
      by_cases same : e.1 = k
      · by_cases h : k = j <;> simp [put, look, same, h, eq_comm]
      · by_cases h : e.1 = j <;> simp_all [put, look]

@[simp] theorem get?_insert (m : FinMap κ ν) (k j : κ) (v : ν) :
    (m.insert k v).get? j = if j = k then some v else m.get? j :=
  look_put k j v m.entries

theorem look_filter_ne (k j : κ) (es : List (κ × ν)) :
    look j (es.filter fun e => decide (e.1 ≠ k)) = if j = k then none else look j es := by
  induction es with
  | nil => simp [look]
  | cons e rest ih =>
      by_cases same : e.1 = k
      · by_cases h : k = j <;> simp_all [look, eq_comm]
      · by_cases h : e.1 = j <;> simp_all [look]

@[simp] theorem get?_erase (m : FinMap κ ν) (k j : κ) :
    (m.erase k).get? j = if j = k then none else m.get? j :=
  look_filter_ne k j m.entries

theorem mem_map_fst_iff {k : κ} {es : List (κ × ν)} :
    k ∈ es.map Prod.fst ↔ ∃ v, look k es = some v := by
  induction es with
  | nil => simp [look]
  | cons e rest ih =>
      by_cases h : e.1 = k
      · simp [look, h]
      · have other : ¬ k = e.1 := fun same => h same.symm
        simp only [List.map_cons, List.mem_cons, other, false_or, ih, look, h, if_false]

theorem mem_keys {m : FinMap κ ν} {k : κ} : k ∈ m.keys ↔ ∃ v, m.get? k = some v :=
  mem_map_fst_iff

theorem mem_iff_look {k : κ} {v : ν} {es : List (κ × ν)} (distinct : (es.map Prod.fst).Nodup) :
    (k, v) ∈ es ↔ look k es = some v := by
  induction es with
  | nil => simp [look]
  | cons e rest ih =>
      obtain ⟨apart, later⟩ := List.nodup_cons.1 distinct
      rw [List.mem_cons, look]
      by_cases here : e.1 = k
      · have absent : (k, v) ∉ rest := fun member => apart (here ▸ List.mem_map_of_mem member)
        rw [if_pos here, or_iff_left absent, Option.some.injEq]
        exact ⟨fun same => same ▸ rfl, fun same => Prod.ext here.symm same.symm⟩
      · have other : (k, v) ≠ e := fun same => here (same ▸ rfl)
        rw [if_neg here, or_iff_right other, ih later]

/-- The pairs of a map are exactly what its view gives. -/
theorem mem_entries {m : FinMap κ ν} {k : κ} {v : ν} :
    (k, v) ∈ m.entries ↔ m.get? k = some v :=
  mem_iff_look m.nodup

/-- There is nothing to erase at a key that is not there. -/
theorem erase_of_get?_eq_none {m : FinMap κ ν} {k : κ} (absent : m.get? k = none) :
    m.erase k = m := by
  have apart : ∀ e ∈ m.entries, e.1 ≠ k := by
    rintro ⟨j, v⟩ member rfl
    rw [mem_entries, absent] at member
    cases member
  have kept : m.entries.filter (fun e => decide (e.1 ≠ k)) = m.entries :=
    List.filter_eq_self.2 (by simpa using apart)
  unfold erase
  simp only [kept]

theorem size_insert_le (m : FinMap κ ν) (k : κ) (v : ν) : (m.insert k v).size ≤ m.size + 1 := by
  have keys := congrArg List.length (map_fst_put k v m.entries)
  rw [List.length_map] at keys
  show (put k v m.entries).length ≤ m.entries.length + 1
  rw [keys]
  split <;> simp

theorem size_erase_lt {m : FinMap κ ν} {k : κ} {v : ν} (present : m.get? k = some v) :
    (m.erase k).size < m.size := by
  have listed : k ∈ m.entries.map Prod.fst := mem_keys.2 ⟨v, present⟩
  obtain ⟨e, member, rfl⟩ := List.mem_map.1 listed
  exact List.length_filter_lt_length_iff_exists.2 ⟨e, member, by simp⟩

end FinMap

end RowStore
