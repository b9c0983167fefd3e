/-
# RowStore.Proofs.Store.Listing -- a list of rows as the contents of a table

A list of rows is a `Listing` of a table when it has exactly the rows of the table, each
with its id, in the strict order of the ids: there is one such list only.  Pages that
are read in the order of their numbers, each in the order of its slots, give a
listing (`Lists.listing`), whether they are read through the pool or from disk.
-/
import RowStore.Proofs.Page.Contents
import RowStore.Proofs.Store.Agreement

namespace RowStore

set_option autoImplicit false

open Store

namespace Contents

/-- Exactly the rows of the table, in the order of their ids. -/
structure Listing (c : Contents) (table : TableId) (rows : List Row) : Prop where
  ordered : rows.Pairwise fun a b => ∃ i j, a.id? = some i ∧ b.id? = some j ∧ i < j
  exact : ∀ row, row ∈ rows ↔
    ∃ id values, row = ⟨some id, values⟩ ∧ id.page.table = table ∧ c id = some values

/-- The rows of one page, in the order of the slots. -/
structure PageListing (c : Contents) (id : PageId) (rows : List Row) : Prop where
  ordered : rows.Pairwise fun a b =>
    ∃ i j, a.id? = some ⟨id, i⟩ ∧ b.id? = some ⟨id, j⟩ ∧ i < j
  exact : ∀ row, row ∈ rows ↔
    ∃ slot values, row = ⟨some ⟨id, slot⟩, values⟩ ∧ c ⟨id, slot⟩ = some values

/-- What a sound page answers when it is asked for its rows. -/
theorem pageListing_rows {c : Contents} {page : Page} {rows : List Row} (sound : page.Sound)
    (contents : ∀ slot, page.at? slot = c ⟨page.id, slot⟩) (read : page.rows = .ok rows) :
    c.PageListing page.id rows := by
  rw [sound.rows_eq] at read
  cases read
  refine ⟨?_, fun row => ?_⟩
  · rw [List.pairwise_filterMap]
    refine List.pairwise_lt_range.imp ?_
    intro i j before a first b second
    obtain ⟨-, -, rfl⟩ := Option.map_eq_some_iff.1 first
    obtain ⟨-, -, rfl⟩ := Option.map_eq_some_iff.1 second
    exact ⟨i, j, rfl, rfl, before⟩
  · simp only [List.mem_filterMap, List.mem_range, Option.map_eq_some_iff]
    constructor
    · rintro ⟨slot, -, values, found, rfl⟩
      exact ⟨slot, values, rfl, by rw [← contents, found]⟩
    · rintro ⟨slot, values, rfl, stored⟩
      rw [← contents] at stored
      refine ⟨slot, ?_, values, stored, rfl⟩
      by_contra past
      rw [Page.at?_eq_none_of_le (Nat.not_lt.1 past)] at stored
      cases stored

/-- Listings of pages of one table, one after the other. -/
inductive Lists (c : Contents) (table : TableId) : List Nat → List Row → Prop where
  | none : Lists c table [] []
  | page {number : Nat} {rest : List Nat} {front back : List Row}
      (first : c.PageListing ⟨table, number⟩ front) (later : Lists c table rest back) :
      Lists c table (number :: rest) (front ++ back)

variable {c : Contents} {table : TableId}

theorem Lists.mem_iff {pages : List Nat} {rows : List Row} (lists : c.Lists table pages rows)
    (row : Row) : row ∈ rows ↔ ∃ number ∈ pages, ∃ slot values,
      row = ⟨some ⟨⟨table, number⟩, slot⟩, values⟩ ∧ c ⟨⟨table, number⟩, slot⟩ = some values := by
  induction lists with
  | none => simp
  | page first later ih =>
      rw [List.mem_append, first.exact, ih]
      constructor
      · rintro (here | ⟨number, member, there⟩)
        · exact ⟨_, List.mem_cons_self, here⟩
        · exact ⟨number, List.mem_cons_of_mem _ member, there⟩
      · rintro ⟨number, member, there⟩
        rcases List.mem_cons.1 member with rfl | member
        · exact Or.inl there
        · exact Or.inr ⟨number, member, there⟩

theorem Lists.ordered {pages : List Nat} {rows : List Row} (lists : c.Lists table pages rows)
    (ascending : pages.Pairwise (· < ·)) :
    rows.Pairwise fun a b => ∃ i j, a.id? = some i ∧ b.id? = some j ∧ i < j := by
  induction lists with
  | none => exact .nil
  | @page number rest front back first later ih =>
      obtain ⟨lowest, others⟩ := List.pairwise_cons.1 ascending
      refine List.pairwise_append.2 ⟨?_, ih others, ?_⟩
      · refine first.ordered.imp ?_
        rintro a b ⟨i, j, one, two, before⟩
        exact ⟨_, _, one, two, Or.inr ⟨rfl, before⟩⟩
      · intro a member b below
        obtain ⟨i, -, rfl, -⟩ := (first.exact a).1 member
        obtain ⟨next, listed, j, -, rfl, -⟩ := (later.mem_iff b).1 below
        exact ⟨_, _, rfl, rfl, Or.inl (Or.inr ⟨rfl, lowest next listed⟩)⟩

/-- All pages of a table, listed in order, list the table. -/
theorem Lists.listing {count : Nat} {rows : List Row}
    (lists : c.Lists table (List.range count) rows)
    (inside : ∀ id values, c id = some values → id.page.table = table → id.page.number < count) :
    c.Listing table rows := by
  refine ⟨lists.ordered List.pairwise_lt_range, fun row => ?_⟩
  rw [lists.mem_iff]
  constructor
  · rintro ⟨number, -, slot, values, rfl, stored⟩
    exact ⟨_, values, rfl, rfl, stored⟩
  · rintro ⟨⟨⟨t, number⟩, slot⟩, values, rfl, rfl, stored⟩
    exact ⟨number, List.mem_range.2 (inside _ values stored rfl), slot, values, rfl, stored⟩

end Contents

/-! ## What lies on disk -/

namespace Store

/-- The rows of these pages of a file as they lie on disk. -/
def decodePages (s : Store) (file : TableFile) : List Nat → Except Fault (List Row)
  | [] => .ok []
  | number :: rest =>
      match s.readFromDisk file ⟨file.id, number⟩ with
      | .error fault => .error fault
      | .ok page =>
          match page.rows, s.decodePages file rest with
          | .ok front, .ok back => .ok (front ++ back)
          | .error fault, _ => .error fault
          | .ok _, .error fault => .error fault

/-- All rows of a table file as they lie on disk. -/
def decodeFile (s : Store) (file : TableFile) : Except Fault (List Row) :=
  s.decodePages file (List.range (s.pageCount file))

end Store

namespace Ledger

variable {ℓ : Ledger} {txn : TxnId} {s after : Store}

theorem Agrees.decodePages (agrees : ℓ.Agrees s) (ok : s.Orderly) {table : TableId}
    {file : TableFile} (registered : s.catalog.file table = .ok file) {pages : List Nat}
    (inside : ∀ number ∈ pages, number < s.pageCount file) :
    ∃ rows, s.decodePages file pages = .ok rows ∧ ℓ.committed.Lists file.id pages rows := by
  obtain ⟨rfl, -⟩ := ok.tables table file registered
  induction pages with
  | nil => exact ⟨[], rfl, .none⟩
  | cons number rest ih =>
      obtain ⟨back, later, lists⟩ := ih fun n member => inside n (List.mem_cons_of_mem _ member)
      obtain ⟨page, read, contents⟩ :=
        agrees.stored ⟨file.id, number⟩ file registered (inside number List.mem_cons_self)
      obtain ⟨-, -, made, sound⟩ := readFromDisk_eq_ok_iff.1 read
      have named : page.id = ⟨file.id, number⟩ := by rw [made]
      have rows := sound.rows_eq
      have first := Contents.pageListing_rows sound (fun slot => named ▸ contents slot) rows
      rw [named] at first
      refine ⟨_, ?_, .page first lists⟩
      rw [Store.decodePages, read]
      simp only
      rw [rows, later, named]

/-- **A table file** decodes to the committed rows of its table. -/
theorem Agrees.decodeFile (agrees : ℓ.Agrees s) (ok : s.Orderly) {table : TableId}
    {file : TableFile} (registered : s.catalog.file table = .ok file) :
    ∃ rows, s.decodeFile file = .ok rows ∧ ℓ.committed.Listing table rows := by
  obtain ⟨rows, decoded, lists⟩ :=
    agrees.decodePages ok registered fun number member => List.mem_range.1 member
  have own := (ok.tables table file registered).1
  refine ⟨rows, decoded, (own ▸ lists).listing fun id values committed here => ?_⟩
  obtain ⟨held, listed, within⟩ := agrees.inside id values committed
  rw [here, registered] at listed
  cases listed
  exact within

/-! ## What a scan sees -/

theorem Agrees.lists_of_scanned (agrees : ℓ.Agrees s) (ok : s.Orderly) {file : TableFile}
    {pages : List Nat} {rows : List Row}
    (scanned : StoreAction.Scanned file txn pages s rows after) (bounded : s.Bounded) :
    (ℓ.view txn).Lists file.id pages rows := by
  induction scanned with
  | done => exact .none
  | @page number rest s mid after frame front back reads there holds read later ih =>
      have still := reads.bounded bounded
      have ordered := ok.walks reads.walk
      have agreed := agrees.walks ok reads.walk still
      obtain ⟨-, -, -, -, sound⟩ := ordered.belongs _ frame there
      have named := (ordered.pool.resident?_id there).2
      have contents := agreed.seen ordered there holds
      have first := Contents.pageListing_rows sound (fun slot => named ▸ contents slot) read
      exact .page (named ▸ first) (ih agreed ordered still)

/-- **A scan** answers what its transaction should see. -/
theorem Agrees.scan (agrees : ℓ.Agrees s) (ok : s.Orderly) {table : TableId} {rows : List Row}
    (run : StoreAction.scan txn table s = (.ok rows, after)) (bounded : s.Bounded) :
    (ℓ.view txn).Listing table rows := by
  obtain ⟨file, registered, scanned⟩ := (StoreAction.scan_spec ok.pool run).2 rows rfl
  have own := (ok.tables table file registered).1
  have lists := agrees.lists_of_scanned ok scanned bounded
  refine (own ▸ lists).listing fun id values seen here => ?_
  obtain ⟨held, listed, within⟩ := agrees.view_inside ok seen
  rw [here, registered] at listed
  cases listed
  exact within

end Ledger

end RowStore
