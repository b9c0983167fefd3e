/-
# RowStore.Proofs.Store.Places -- rows that lie in order

Rows that fill a table from the front lie next to each other: row `k` in slot `k % slots` of
page `k / slots`.  `firstRows` are the contents of such a table.  The lowest free slot on
its last page is the place of the next row (`LowestFree.unique`), and a scan of the table
can answer its rows in one order only (`listing_rowList`, `Listing.unique`).
-/
import Mathlib.Algebra.Order.Floor.Div
import RowStore.Proofs.Store.Listing

namespace RowStore

set_option autoImplicit false

/-! ## The order of ids -/

theorem PageId.lt_asymm {p q : PageId} (before : p < q) : ¬ q < p := by
  rintro (table | ⟨same, number⟩)
  · rcases before with other | ⟨own, -⟩
    · exact absurd table (UInt32.lt_asymm other)
    · exact UInt32.lt_irrefl _ (own ▸ table)
  · rcases before with other | ⟨-, less⟩
    · exact UInt32.lt_irrefl _ (same ▸ other)
    · exact Nat.lt_asymm less number

theorem RecordId.lt_asymm {i j : RecordId} (before : i < j) : ¬ j < i := by
  rintro (page | ⟨same, slot⟩)
  · rcases before with other | ⟨own, -⟩
    · exact PageId.lt_asymm other page
    · exact PageId.lt_asymm (own ▸ page) (own ▸ page)
  · rcases before with other | ⟨-, less⟩
    · exact PageId.lt_asymm (same ▸ other) (same ▸ other)
    · exact Nat.lt_asymm less slot

/-! ## Places -/

/-- The place of row `k`, where rows lie in order and `slots` to a page. -/
def place (table : TableId) (slots k : Nat) : RecordId := ⟨⟨table, k / slots⟩, k % slots⟩

/-- The row that has its place there. -/
def rank (slots : Nat) (id : RecordId) : Nat := id.page.number * slots + id.slot

variable {table : TableId} {slots k n : Nat}

@[simp] theorem rank_place (table : TableId) (slots k : Nat) :
    rank slots (place table slots k) = k :=
  Nat.div_add_mod' k slots

theorem place_rank {number slot : Nat} (within : slot < slots) :
    place table slots (rank slots ⟨⟨table, number⟩, slot⟩) = ⟨⟨table, number⟩, slot⟩ := by
  have pos : 0 < slots := Nat.zero_lt_of_lt within
  simp only [place, rank]
  rw [Nat.mul_comm, Nat.mul_add_div pos, Nat.div_eq_of_lt within, Nat.add_zero, Nat.mul_add_mod,
    Nat.mod_eq_of_lt within]

/-- Rows lie in the order of their ids. -/
theorem place_lt_place {i j : Nat} (before : i < j) :
    place table slots i < place table slots j := by
  rcases Nat.lt_or_eq_of_le (Nat.div_le_div_right (c := slots) (Nat.le_of_lt before)) with
    page | page
  · exact Or.inl (Or.inr ⟨rfl, page⟩)
  · refine Or.inr ⟨by simp only [place, page], ?_⟩
    have first := Nat.div_add_mod i slots
    have second := Nat.div_add_mod j slots
    rw [page] at first
    show i % slots < j % slots
    omega

/-! ## Pages -/

theorem ceilDiv_succ (pos : 0 < slots) : (n + 1) ⌈/⌉ slots = n / slots + 1 := by
  rw [Nat.ceilDiv_eq_add_pred_div, ← Nat.add_div_right n pos]
  congr 1
  omega

/-- Before a page begins, the pages of the rows so far are full. -/
theorem ceilDiv_of_dvd (pos : 0 < slots) (full : slots ∣ n) : n ⌈/⌉ slots = n / slots := by
  obtain ⟨q, rfl⟩ := full
  rw [Nat.mul_div_cancel_left q pos, ← smul_eq_mul, smul_ceilDiv pos]

theorem ceilDiv_of_not_dvd (pos : 0 < slots) (open_page : ¬ slots ∣ n) :
    n ⌈/⌉ slots = n / slots + 1 := by
  cases n with
  | zero => exact absurd (Nat.dvd_zero slots) open_page
  | succ n => rw [ceilDiv_succ pos, Nat.succ_div, if_neg open_page, Nat.add_zero]

/-- So many more rows, and the pages that they are on. -/
theorem ceilDiv_le_of_le (pos : 0 < slots) {start batch : Nat} (few : n ≤ start + batch) :
    n ⌈/⌉ slots ≤ start / slots + batch ⌈/⌉ slots + 1 := by
  have whole : start ≤ slots * (start / slots + 1) := Nat.le_of_lt (Nat.lt_mul_div_succ start pos)
  have more : batch ≤ slots * (batch ⌈/⌉ slots) := (ceilDiv_le_iff_le_mul pos).1 le_rfl
  rw [ceilDiv_le_iff_le_mul pos, Nat.add_right_comm, Nat.mul_add]
  omega

/-! ## Contents -/

namespace Contents

variable {row : Nat → List Value} {c : Contents}

/-- The first `n` of the rows are in their places, and nothing else is in the table. -/
def firstRows (table : TableId) (slots : Nat) (row : Nat → List Value) (n : Nat) : Contents :=
  fun id =>
    if id = place table slots (rank slots id) ∧ rank slots id < n then some (row (rank slots id))
    else none

theorem firstRows_eq_some_iff {id : RecordId} {values : List Value} :
    firstRows table slots row n id = some values ↔
      ∃ k, k < n ∧ id = place table slots k ∧ values = row k := by
  rw [firstRows]
  constructor
  · intro found
    split at found
    · rename_i here
      cases found
      exact ⟨_, here.2, here.1, rfl⟩
    · cases found
  · rintro ⟨k, inside, rfl, rfl⟩
    rw [rank_place]
    exact if_pos ⟨rfl, inside⟩

theorem firstRows_place_eq_none (past : n ≤ k) :
    firstRows table slots row n (place table slots k) = none := by
  rw [firstRows, rank_place]
  exact if_neg fun here => Nat.not_lt.2 past here.2

/-- Every slot before the place of the next row is taken. -/
theorem isSome_firstRows {number slot : Nat} (within : slot < slots)
    (before : number * slots + slot < n) :
    (firstRows table slots row n ⟨⟨table, number⟩, slot⟩).isSome = true := by
  rw [firstRows, if_pos ⟨(place_rank within).symm, before⟩]
  rfl

/-- The pages before the last one are full. -/
theorem isSome_firstRows_of_page_lt {number slot : Nat} (before : number < n / slots)
    (within : slot < slots) :
    (firstRows table slots row n ⟨⟨table, number⟩, slot⟩).isSome = true := by
  have ends : (number + 1) * slots ≤ n :=
    Nat.le_trans (Nat.mul_le_mul_right _ before) (Nat.div_mul_le_self n slots)
  rw [Nat.add_mul, Nat.one_mul] at ends
  exact isSome_firstRows within (by omega)

theorem firstRows_zero : firstRows table slots row 0 = fun _ => none := by
  funext id
  exact if_neg fun here => Nat.not_lt_zero _ here.2

/-- Storing the next row in its place. -/
theorem firstRows_succ : (Edit.insert (place table slots n) (row n)).apply
    (firstRows table slots row n) = firstRows table slots row (n + 1) := by
  funext id
  by_cases here : id = place table slots n
  · rw [here, firstRows, rank_place, if_pos ⟨rfl, Nat.lt_succ_self n⟩]
    exact if_pos rfl
  · refine (if_neg here).trans ?_
    have apart : id = place table slots (rank slots id) → rank slots id ≠ n :=
      fun placed same => here (same ▸ placed)
    unfold firstRows
    congr 1
    simp only [eq_iff_iff, and_congr_right_iff]
    intro placed
    have other := apart placed
    omega

/-- The first slot of its page that has no row. -/
structure LowestFree (c : Contents) (id : RecordId) : Prop where
  free : c id = none
  below : ∀ slot, slot < id.slot → (c ⟨id.page, slot⟩).isSome = true

theorem LowestFree.unique {id other : RecordId} (lowest : c.LowestFree id)
    (again : c.LowestFree other) (page : id.page = other.page) : id = other := by
  obtain ⟨number, slot⟩ := id
  obtain ⟨_, next⟩ := other
  cases page
  have free := lowest.free
  have vacant := again.free
  rcases Nat.lt_trichotomy slot next with before | rfl | after
  · have taken := again.below slot before
    rw [free] at taken
    cases taken
  · rfl
  · have taken := lowest.below next after
    rw [vacant] at taken
    cases taken

theorem lowestFree_place (pos : 0 < slots) :
    (firstRows table slots row n).LowestFree (place table slots n) := by
  refine ⟨firstRows_place_eq_none (Nat.le_refl n), fun slot before => ?_⟩
  have inside : n % slots < slots := Nat.mod_lt n pos
  have whole := Nat.div_add_mod' n slots
  have lower : slot < n % slots := before
  exact isSome_firstRows (by omega) (by omega)

/-! ## Listings -/

/-- The first `n` rows, each with its place. -/
def rowList (table : TableId) (slots : Nat) (row : Nat → List Value) (n : Nat) : List Row :=
  (List.range n).map fun k => ⟨some (place table slots k), row k⟩

theorem listing_rowList :
    (firstRows table slots row n).Listing table (rowList table slots row n) := by
  refine ⟨?_, fun found => ?_⟩
  · rw [rowList, List.pairwise_map]
    refine List.pairwise_lt_range.imp ?_
    intro i j before
    exact ⟨_, _, rfl, rfl, place_lt_place before⟩
  · simp only [rowList, List.mem_map, List.mem_range, firstRows_eq_some_iff]
    constructor
    · rintro ⟨k, inside, rfl⟩
      exact ⟨_, _, rfl, rfl, k, inside, rfl, rfl⟩
    · rintro ⟨_, _, rfl, -, k, inside, rfl, rfl⟩
      exact ⟨k, inside, rfl⟩

/-- No two rows come before each other. -/
theorem before_asymm {a b : Row} (before : ∃ i j, a.id? = some i ∧ b.id? = some j ∧ i < j) :
    ¬ ∃ i j, b.id? = some i ∧ a.id? = some j ∧ i < j := by
  obtain ⟨i, j, one, two, before⟩ := before
  rintro ⟨j', i', two', one', after⟩
  rw [one] at one'
  rw [two] at two'
  cases one'
  cases two'
  exact RecordId.lt_asymm before after

/-- No row is listed twice. -/
theorem Listing.nodup {rows : List Row} (listing : c.Listing table rows) : rows.Nodup := by
  refine listing.ordered.imp fun {a b} before same => ?_
  rw [same] at before
  exact before_asymm before before

/-- There is one listing only. -/
theorem Listing.unique {rows others : List Row} (first : c.Listing table rows)
    (second : c.Listing table others) : rows = others := by
  refine List.Perm.eq_of_pairwise (fun a b _ _ before after => absurd after (before_asymm before))
    first.ordered second.ordered ?_
  rw [List.perm_ext_iff_of_nodup first.nodup second.nodup]
  intro row
  rw [first.exact, second.exact]

end Contents

end RowStore
