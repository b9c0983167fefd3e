/-
# RowStore.Proofs.Query.Overtaking -- when a scan comes upon the copies of its rows

Where a table is not spacious, some copy has to go to a page that the scan has still to fetch.
The scan answers all that it finds ahead, the copies included (`answers_ahead`), so in the end it
has answered more rows than there were.  If a table has been doubled, it was spacious
(`spacious_of_doubled`): there is no weaker condition under which inserting a table's rows into
itself gives one copy of each.
-/
import RowStore.Proofs.Query.Doubling

namespace RowStore

set_option autoImplicit false

open RowStore.Action

/-! ## Rows on the page that was fetched last -/

namespace Cursor

variable {c now : Cursor} {s after : Store} {answer : Option Row}

/-- The rows lie on the page before the next one. -/
def OnLast (c : Cursor) (rows : List Row) : Prop :=
  ∀ row ∈ rows, ∃ id, row.id? = some id ∧ id.page.number + 1 = c.nextPage

theorem advance_onLast (legible : s.Legible c.file) (dry : c.ready = []) {bound : Nat}
    (run : Cursor.advance bound (c, s) = (.ok answer, now, after)) :
    now.OnLast (answer.toList ++ now.ready) := by
  induction bound generalizing c s with
  | zero => cases run
  | succ bound ih =>
      rw [advance_succ] at run
      split at run
      · cases run
        intro row member
        rw [dry] at member
        cases member
      · rcases read : StoreAction.readPage c.txn ⟨c.file.id, c.nextPage⟩ .shared s with
          ⟨stop | frame, mid⟩ <;> rw [read] at run
        · cases run
        have reads := (StoreAction.readPage_spec legible.mirrored.pool read).1
        simp only at run
        split at run
        · cases run
        · exact ih (c := c.passed (c.reckoned s)) (legible.reads reads) dry run
        · rename_i row rest listed
          cases run
          intro other member
          obtain ⟨slot, values, rfl, -⟩ := ((legible.pageListing read listed).exact other).1 member
          exact ⟨_, rfl, rfl⟩

/-- The rows that are ready are those of one page. -/
theorem next_onLast (legible : s.Legible c.file) (before : c.OnLast c.ready)
    (run : Cursor.next (c, s) = (.ok answer, now, after)) :
    now.OnLast (answer.toList ++ now.ready) := by
  rw [next_apply] at run
  split at run
  · cases run
  · split at run
    · rename_i row rest ready
      cases run
      rw [ready] at before
      exact before
    · rename_i dry
      exact advance_onLast legible dry run

/-- While rows are ready no page is fetched. -/
theorem next_of_ready {row : Row} {rest : List Row} (ready : c.ready = row :: rest)
    (run : Cursor.next (c, s) = (.ok answer, now, after)) : now.nextPage = c.nextPage := by
  rw [next_apply, ready] at run
  split at run <;> cases run
  rfl

end Cursor

/-! ## Slots that are used -/

namespace Contents

variable {c d : Contents} {file : TableFile} {front : List Row} {copies : List (List Value)}
  {pages : Nat}

theorem rowsBefore_rowsBefore (rows : List Row) {number last : Nat} (lower : number ≤ last) :
    rowsBefore (rowsBefore rows last) number = rowsBefore rows number := by
  unfold rowsBefore
  rw [List.filter_filter]
  refine List.filter_congr fun row _ => ?_
  cases row.id? with
  | none => rfl
  | some id =>
      simp only [Option.any_some, Bool.and_eq_left_iff_imp, decide_eq_true_eq]
      exact fun before => Nat.lt_of_lt_of_le before lower

/-- Rows that are listed have ids of their own, which lie on the listed pages. -/
theorem Lists.ids {table : TableId} {numbers : List Nat} {rows : List Row}
    (lists : c.Lists table numbers rows) (ascending : numbers.Pairwise (· < ·)) :
    ∃ ids : List RecordId, rows.map Row.id? = ids.map some ∧ ids.Nodup ∧
      ∀ id ∈ ids, id.page.table = table ∧ id.page.number ∈ numbers ∧
        ∃ values, c id = some values := by
  obtain ⟨ids, named, sorted⟩ := Cursor.ids_of_ordered (lists.ordered ascending)
    fun row member => by
      obtain ⟨_, _, _, _, rfl, -⟩ := (lists.mem_iff row).1 member
      rfl
  refine ⟨ids, named, sorted.imp fun {a b} before same => ?_, fun id member => ?_⟩
  · rw [same] at before
    exact RecordId.lt_asymm before before
  · obtain ⟨row, listed, own⟩ : ∃ row ∈ rows, row.id? = some id := by
      rw [← List.mem_map, named]
      exact List.mem_map_of_mem member
    obtain ⟨number, inside, slot, values, rfl, stored⟩ := (lists.mem_iff row).1 listed
    cases own
    exact ⟨rfl, inside, values, stored⟩

/-- There are no more ids in the slots of the first pages than such slots. -/
theorem length_le_slots {ids : List RecordId} (once : ids.Nodup)
    (inside : ∀ id ∈ ids, id.page.table = file.id ∧ id.page.number < pages ∧
      id.slot < file.slots) : ids.length ≤ file.slots * pages := by
  let place : RecordId → Nat × Nat := fun id => (id.page.number, id.slot)
  have slots : ∀ id ∈ ids.toFinset,
      place id ∈ Finset.range pages ×ˢ Finset.range file.slots := by
    intro id member
    obtain ⟨-, page, slot⟩ := inside id (List.mem_toFinset.1 member)
    exact Finset.mem_product.2 ⟨Finset.mem_range.2 page, Finset.mem_range.2 slot⟩
  have apart : Set.InjOn place ids.toFinset := by
    rintro ⟨⟨table, number⟩, slot⟩ first ⟨⟨other, _⟩, _⟩ second same
    obtain rfl : table = file.id := (inside _ (List.mem_toFinset.1 first)).1
    obtain rfl : other = file.id := (inside _ (List.mem_toFinset.1 second)).1
    cases same
    rfl
  have most := Finset.card_le_card_of_injOn place slots apart
  rwa [List.toFinset_card_of_nodup once, Finset.card_product, Finset.card_range,
    Finset.card_range, Nat.mul_comm] at most

/-- The rows listed on the first pages and those stored there since have slots of their own. -/
theorem Fills.most (fills : c.Fills file copies d)
    (lists : c.Lists file.id (List.range pages) front)
    (slots : ∀ id values, d id = some values → id.page.table = file.id → id.slot < file.slots)
    (ahead : ∀ number slot, pages ≤ number →
      d ⟨⟨file.id, number⟩, slot⟩ = c ⟨⟨file.id, number⟩, slot⟩) :
    front.length + copies.length ≤ file.slots * pages := by
  obtain ⟨places, rfl, once, fresh, found⟩ := fills.places
  obtain ⟨ids, named, distinct, stored⟩ := lists.ids List.pairwise_lt_range
  have all : (ids ++ places.map Prod.fst).Nodup := by
    refine List.nodup_append.2 ⟨distinct, once, ?_⟩
    rintro id old _ new rfl
    obtain ⟨-, -, _, there⟩ := stored id old
    obtain ⟨place, member, rfl⟩ := List.mem_map.1 new
    rw [(fresh place member).2] at there
    cases there
  have inside : ∀ id ∈ ids ++ places.map Prod.fst, id.page.table = file.id ∧
      id.page.number < pages ∧ id.slot < file.slots := by
    intro id member
    rcases List.mem_append.1 member with old | new
    · obtain ⟨own, page, values, there⟩ := stored id old
      exact ⟨own, List.mem_range.1 page, slots id values ((found _ _).2 (Or.inl there)) own⟩
    · obtain ⟨⟨⟨⟨table, number⟩, slot⟩, values⟩, listed, rfl⟩ := List.mem_map.1 new
      obtain ⟨own, free⟩ := fresh _ listed
      obtain rfl : table = file.id := own
      have seen := (found _ values).2 (Or.inr listed)
      refine ⟨rfl, ?_, slots _ values seen rfl⟩
      by_contra past
      rw [ahead number slot (Nat.not_lt.1 past)] at seen
      cases free.symm.trans seen
  have same := congrArg List.length named
  rw [List.length_map, List.length_map] at same
  have most := length_le_slots all inside
  rwa [List.length_append, ← same, List.length_map, ← List.length_map Prod.snd] at most

end Contents

/-! ## One turn of the insert -/

namespace Source

variable {txn : TxnId} {table : TableId} {bound : Nat} {s after : Store} {c : Cursor}
  {st now : ScanState} {answer : Option Row}

theorem next_of_scan (there : st.cursor? = some c)
    (run : (scan txn table).next bound (st, s) = (.ok answer, now, after)) :
    ∃ d, now.cursor? = some d ∧ Cursor.next (c, s) = (.ok answer, d, after) := by
  rw [scan_next, onCursor_apply, there] at run
  rcases tried : Cursor.next (c, s) with ⟨reply, d, store⟩
  simp only [tried] at run
  cases run
  exact ⟨d, rfl, rfl⟩

end Source

/-! ## What lies ahead of a scan -/

namespace Store.Legible

variable {s : Store} {txn : TxnId} {file : TableFile} {id : RecordId} {values : List Value}

/-- What is seen of the table lies in its slots. -/
theorem seen_slot (legible : s.Legible file) (seen : s.seen txn id = some values)
    (own : id.page.table = file.id) : id.slot < file.slots := by
  obtain ⟨⟨table, number⟩, slot⟩ := id
  obtain rfl : table = file.id := own
  rw [seen_row legible.registered] at seen
  cases found : s.pageFor txn file number with
  | error fault =>
      rw [found] at seen
      cases seen
  | ok page =>
      rw [found] at seen
      rw [← legible.slots_eq found]
      by_contra past
      have none : page.at? slot = none := Page.at?_eq_none_of_le (Nat.not_lt.1 past)
      cases none.symm.trans seen

/-- An insert makes no file shorter. -/
theorem pageCount_le_insertRow {after : Store} (legible : s.Legible file)
    (run : StoreAction.insertRow txn file.id values s = (.ok id, after)) :
    s.pageCount file ≤ after.pageCount file := by
  cases (legible.insert_allots run).1 with
  | first _ disk => exact (views_congr disk file).2.1.ge
  | appended _ _ _ _ counted =>
      rw [counted]
      exact Nat.le_succ _

end Store.Legible

namespace Source

variable {bound : Nat} {s after : Store} {txn : TxnId} {file : TableFile}
  {c : Cursor} {st now : ScanState} {more : List Row}

/-- **The scan answers all that is ahead**: the rows that are ready, and those that its
transaction sees on the pages to come, whoever has inserted them. -/
theorem answers_ahead
    (sweep : Sweep ((scan txn file.id).next bound) (fun row => do
      let _ ← StoreAction.insertRow txn file.id row.values) st s more now after)
    (there : st.cursor? = some c) (onFile : c.file = file) (ofTxn : c.txn = txn)
    (legible : s.Legible file) :
    (∀ row ∈ c.ready, row ∈ more) ∧
      ∀ number slot values, c.nextPage ≤ number →
        s.seen txn ⟨⟨file.id, number⟩, slot⟩ = some values →
          ⟨some ⟨⟨file.id, number⟩, slot⟩, values⟩ ∈ more := by
  induction sweep generalizing c with
  | @done st now s after last =>
      subst onFile ofTxn
      obtain ⟨d, -, tried⟩ := next_of_scan there last
      obtain ⟨reads, onFile, -, count, fresh, moved, lists, same⟩ :=
        Cursor.passes_next legible tried
      obtain ⟨dry, known, past⟩ := (Cursor.next_leaves tried).2 rfl
      rw [dry, Option.toList_none, List.append_nil] at same
      obtain ⟨ready, none⟩ := List.append_eq_nil_iff.1 same
      refine ⟨by rw [ready]; exact nofun, fun number slot values later seen => ?_⟩
      have inside : number < s.pageCount c.file := legible.seen_inside seen rfl
      have counted := (Store.views_congr reads.disk c.file).2.1
      rw [known, onFile, counted] at past
      have member := (lists.mem_iff _).2
        ⟨number, List.mem_range'_1.2 ⟨later, by omega⟩, slot, values, rfl, seen⟩
      rw [none] at member
      exact member
  | @row st mid now s between changed after row rows taken edited _ ih =>
      subst onFile ofTxn
      obtain ⟨d, at_mid, tried⟩ := next_of_scan there taken
      obtain ⟨id, inserted⟩ := insertRow_of_edit edited
      obtain ⟨reads, onFile, ofTxn, count, fresh, moved, lists, same⟩ :=
        Cursor.passes_next legible tried
      have seen_eq : between.seen c.txn = s.seen c.txn :=
        Store.seen_reads legible.mirrored.tables reads
      obtain ⟨legible', least, shows⟩ := (legible.reads reads).insertRow inserted
      obtain ⟨ready, ahead⟩ := ih at_mid onFile ofTxn legible'
      have fetched : ∀ other ∈ c.ready ++ fresh, other ∈ row :: rows := by
        intro other member
        rw [same] at member
        rcases List.mem_cons.1 member with rfl | later
        · exact List.mem_cons_self
        · exact List.mem_cons_of_mem _ (ready other later)
      refine ⟨fun other member => fetched other (List.mem_append_left _ member),
        fun number slot values later seen => ?_⟩
      by_cases passed : number < d.nextPage
      · exact fetched _ (List.mem_append_right _ ((lists.mem_iff _).2
          ⟨number, List.mem_range'_1.2 ⟨later, by omega⟩, slot, values, rfl, seen⟩))
      · -- The copy went to a slot that was free, so the row is still there.
        refine List.mem_cons_of_mem _ (ahead number slot values (Nat.not_lt.1 passed) ?_)
        rw [shows.own]
        exact least.keeps (by rw [seen_eq]; exact seen)

/-- Each row that the scan answers is stored at its turn. -/
theorem fills_of_sweep
    (sweep : Sweep ((scan txn file.id).next bound) (fun row => do
      let _ ← StoreAction.insertRow txn file.id row.values) st s more now after)
    (there : st.cursor? = some c) (onFile : c.file = file) (ofTxn : c.txn = txn)
    (legible : s.Legible file) :
    (s.seen txn).Fills file (more.map Row.values) (after.seen txn) := by
  induction sweep generalizing c with
  | @done st now s after last =>
      subst onFile ofTxn
      obtain ⟨d, -, tried⟩ := next_of_scan there last
      have reads := (Cursor.passes_next legible tried).reads
      rw [Store.seen_reads legible.mirrored.tables reads]
      exact .done _
  | @row st mid now s between changed after row rows taken edited _ ih =>
      subst onFile ofTxn
      obtain ⟨d, at_mid, tried⟩ := next_of_scan there taken
      obtain ⟨id, inserted⟩ := insertRow_of_edit edited
      obtain ⟨reads, onFile, ofTxn, -⟩ := Cursor.passes_next legible tried
      obtain ⟨legible', least, shows⟩ := (legible.reads reads).insertRow inserted
      have later := ih at_mid onFile ofTxn legible'
      rw [shows.own] at later
      rw [Store.seen_reads legible.mirrored.tables reads] at least later
      exact .row least later

end Source

/-! ## A scan that comes upon no copy -/

namespace Trails

variable {b s after : Store} {txn : TxnId} {file : TableFile} {answered copied more rows : List Row}
  {row : Row} {c : Cursor} {id : RecordId}

/-- Once every row behind the scan is copied, they take two slots each. -/
theorem most (trails : Trails b txn file copied copied c s) (dry : c.ready = []) :
    2 * copied.length ≤ file.slots * c.nextPage := by
  have passed := trails.passed
  rw [dry, List.append_nil] at passed
  have taken := trails.copies.most passed
    (fun id values seen own => trails.legible.seen_slot seen own) trails.ahead
  rw [List.length_map] at taken
  omega

/-- **A copy ahead of the scan** is answered in addition to all the rows that there were. -/
theorem more_of_ahead (trails : Trails b txn file answered copied c s)
    (listing : (b.seen txn).Listing file.id rows)
    (inserted : StoreAction.insertRow txn file.id row.values s = (.ok id, after))
    (ahead : c.nextPage ≤ id.page.number)
    (ready : ∀ other ∈ c.ready, other ∈ more)
    (later : ∀ number slot values, c.nextPage ≤ number →
      after.seen txn ⟨⟨file.id, number⟩, slot⟩ = some values →
        ⟨some ⟨⟨file.id, number⟩, slot⟩, values⟩ ∈ more) :
    rows.length < (answered ++ more).length := by
  obtain ⟨-, least, shows⟩ := trails.legible.insertRow inserted
  obtain ⟨⟨table, copy_page⟩, copy_slot⟩ := id
  obtain rfl : table = file.id := least.table
  have copy : ⟨some ⟨⟨file.id, copy_page⟩, copy_slot⟩, row.values⟩ ∈ more := by
    refine later copy_page copy_slot row.values ahead ?_
    rw [shows.own]
    exact if_pos rfl
  have fresh : ⟨some ⟨⟨file.id, copy_page⟩, copy_slot⟩, row.values⟩ ∉ rows := by
    intro member
    obtain ⟨id, values, same, -, stored⟩ := (listing.exact _).1 member
    cases same
    have free := least.free
    rw [trails.ahead copy_page copy_slot ahead, stored] at free
    cases free
  have all : ∀ other ∈ ⟨some ⟨⟨file.id, copy_page⟩, copy_slot⟩, row.values⟩ :: rows,
      other ∈ answered ++ more := by
    intro other member
    rcases List.mem_cons.1 member with rfl | there
    · exact List.mem_append_right _ copy
    obtain ⟨⟨⟨table, number⟩, slot⟩, values, rfl, own, stored⟩ := (listing.exact other).1 there
    obtain rfl : table = file.id := own
    by_cases passed : number < c.nextPage
    · have before := (trails.passed.mem_iff _).2
        ⟨number, List.mem_range.2 passed, slot, values, rfl, stored⟩
      rcases List.mem_append.1 before with old | next
      · exact List.mem_append_left _ old
      · exact List.mem_append_right _ (ready _ next)
    · refine List.mem_append_right _ (later number slot values (Nat.not_lt.1 passed) ?_)
      have seen := trails.ahead number slot (Nat.not_lt.1 passed)
      rw [stored] at seen
      rw [shows.own]
      exact least.keeps seen
  have distinct := List.nodup_cons.2 ⟨fresh, listing.nodup⟩
  exact (List.subperm_of_subset distinct all).length_le

/-- On the pages before the last one that was fetched lie only rows that were copied before it
was. -/
theorem rowsBefore_le (trails : Trails b txn file (copied ++ [row]) copied c s)
    (listing : (b.seen txn).Listing file.id rows) (onLast : c.OnLast (row :: c.ready)) {number : Nat}
    (before : number < c.nextPage) :
    (Contents.rowsBefore rows number).length ≤ copied.length := by
  have none : Contents.rowsBefore (row :: c.ready) number = [] := by
    refine List.filter_eq_nil_iff.2 fun other member => ?_
    obtain ⟨id, named, last⟩ := onLast other member
    rw [named]
    simp only [Option.any_some, decide_eq_true_eq]
    omega
  have all := listing.rowsBefore trails.passed
  rw [List.append_assoc, List.singleton_append] at all
  rw [← Contents.rowsBefore_rowsBefore rows before.le, all, Contents.rowsBefore, List.filter_append]
  unfold Contents.rowsBefore at none
  rw [none, List.append_nil]
  exact List.length_filter_le _ _

/-- A scan that answers no more rows than there were has room for all copies behind it. -/
theorem spacious {bound : Nat} {st now : Source.ScanState}
    (sweep : Source.Sweep ((Source.scan txn file.id).next bound) (fun row => do
      let _ ← StoreAction.insertRow txn file.id row.values) st s more now after)
    (there : st.cursor? = some c) (trails : Trails b txn file copied copied c s)
    (onLast : c.OnLast c.ready) (longer : b.pageCount file ≤ s.pageCount file)
    (legible : b.Legible file) (listing : (b.seen txn).Listing file.id rows)
    (room : ∀ number < c.nextPage, 2 * (Contents.rowsBefore rows number).length ≤ file.slots * number)
    (few : (copied ++ more).length ≤ rows.length) : Spacious file (b.pageCount file) rows := by
  induction sweep generalizing c copied with
  | @done st now s after last =>
      obtain ⟨d, -, tried⟩ := Source.next_of_scan there last
      have further := trails.next tried
      obtain ⟨reads, -, -, _, fresh, -, -, same⟩ :=
        Cursor.passes_next (trails.onFile ▸ trails.legible) tried
      obtain ⟨dry, known, past⟩ := (Cursor.next_leaves tried).2 rfl
      rw [dry, Option.toList_none, List.append_nil] at same
      rw [known, further.onFile, (Store.views_congr reads.disk file).2.1] at past
      rw [Option.toList_none, List.append_nil] at further
      obtain rfl := further.answered_all dry legible (longer.trans past) listing
      intro number inside
      by_cases lower : number < c.nextPage
      · exact room number lower
      · have taken := trails.most (List.append_eq_nil_iff.1 same).1
        have fewer : (Contents.rowsBefore copied number).length ≤ copied.length :=
          List.length_filter_le _ _
        have most := Nat.mul_le_mul_left file.slots (Nat.not_lt.1 lower)
        omega
  | @row st mid now s between changed after row rest taken edited later ih =>
      obtain ⟨d, at_mid, tried⟩ := Source.next_of_scan there taken
      obtain ⟨id, inserted⟩ := Source.insertRow_of_edit edited
      have further := trails.next tried
      have last := Cursor.next_onLast (trails.onFile ▸ trails.legible) onLast tried
      have reads := (Cursor.passes_next (trails.onFile ▸ trails.legible) tried).reads
      have total : (copied ++ [row] ++ rest).length ≤ rows.length := by simpa using few
      by_cases behind : id.page.number < d.nextPage
      · refine ih at_mid (further.insert inserted behind) (fun other member =>
          last other (List.mem_append_right _ member)) ?_ (fun number inside => ?_) total
        · rw [← (Store.views_congr reads.disk file).2.1] at longer
          exact longer.trans (further.legible.pageCount_le_insertRow inserted)
        by_cases lower : number < c.nextPage
        · exact room number lower
        · -- The scan has fetched a page, so no row was ready.
          have dry : c.ready = [] := by
            rcases ready : c.ready with _ | ⟨first, others⟩
            · rfl
            · rw [Cursor.next_of_ready ready tried] at inside
              exact absurd inside lower
          have taken := trails.most dry
          have fewer := further.rowsBefore_le listing last inside
          have most := Nat.mul_le_mul_left file.slots (Nat.not_lt.1 lower)
          omega
      · obtain ⟨ready, ahead⟩ := Source.answers_ahead later at_mid further.onFile further.ofTxn
          (further.legible.insertRow inserted).1
        have more := further.more_of_ahead listing inserted (Nat.not_lt.1 behind) ready ahead
        exact absurd total (Nat.not_le.2 more)

end Trails

/-- Rows that fill a table in the same way are as many. -/
theorem Contents.Fills.length_eq {c d : Contents} {file : TableFile}
    {copies others : List (List Value)} (first : c.Fills file copies d)
    (second : c.Fills file others d) : copies.length = others.length := by
  obtain ⟨places, rfl, once, fresh, found⟩ := first.places
  obtain ⟨more, rfl, again, free, there⟩ := second.places
  have both : ∀ place, place ∈ places ↔ place ∈ more := by
    rintro ⟨id, values⟩
    constructor
    · intro member
      have seen := (found id values).2 (Or.inr member)
      refine ((there id values).1 seen).resolve_left fun old => ?_
      rw [(fresh _ member).2] at old
      cases old
    · intro member
      have seen := (there id values).2 (Or.inr member)
      refine ((found id values).1 seen).resolve_left fun old => ?_
      rw [(free _ member).2] at old
      cases old
  have same := (List.perm_ext_iff_of_nodup once.of_map again.of_map).2 both
  rw [List.length_map, List.length_map, same.length_eq]

namespace Running

variable {s after : Store} {txn : TxnId} {file : TableFile} {rows : List Row}
  {answers : List Row} {ended : Running}

/-- **A table that was doubled was spacious.**  If a transaction has inserted the rows of a table
into the table itself, and then sees one copy of each beside the rows that it saw before, the
table was spacious. -/
theorem spacious_of_doubled (legible : s.Legible file)
    (listing : (s.seen txn).Listing file.id rows)
    (run : collect (.new txn (double file.id), s) = (.ok answers, ended, after))
    (doubled : (s.seen txn).Fills file (rows.map Row.values) (after.seen txn)) :
    Spacious file (s.pageCount file) rows := by
  obtain ⟨state, -, ran⟩ := perform_cases run
  obtain ⟨mid, between, now, taken, prepared, sweep, -, rfl, -⟩ :=
    (Source.collect_change_iff (Plan.one_lt_rowBound _ s)).1 ran
  have started := (double_start legible.registered).symm.trans prepared
  cases started
  have fills : (s.seen txn).Fills file (taken.map Row.values) (after.seen txn) :=
    Source.fills_of_sweep sweep rfl rfl rfl legible
  have few : taken.length ≤ rows.length := by
    have same := fills.length_eq doubled
    rw [List.length_map, List.length_map] at same
    exact same.le
  exact (Trails.start legible).spacious sweep rfl nofun le_rfl legible listing nofun few

end Running

end RowStore
