/-
# RowStore.Proofs.Store.Attempts -- the page that a call comes to

An insert passes over full pages and tries the first that is not full, or else one that it
appends (`insertRow_tried`).  A delete tries the page that the row's id names
(`deleteRow_erased`).  A page that is tried is not reached, because the transaction is
hindered or the page cannot be read, or it is the page that the transaction sees, and then it
takes the change or refuses it.
-/
import RowStore.Proofs.Store.Sight
import RowStore.Proofs.Store.TypeSafe

namespace RowStore

set_option autoImplicit false

open RowStore.Action

/-- A lock has to be waited for or never could be, or there is no frame for a page. -/
inductive Stop.Hindered : Stop → Prop where
  | blocked (txn : TxnId) (request : LockRequest) : Hindered (.blocked txn request)
  | deadlock (txn : TxnId) (page : PageId) (mode : LockMode) :
      Hindered (.fault (.deadlock txn page mode))
  | poolFull : Hindered (.fault .poolFull)

/-- Why a page of a table was not reached: the transaction is hindered, or the page is not
resident and cannot be read from disk. -/
inductive Store.Unreached (s : Store) (file : TableFile) (number : Nat) : Stop → Prop where
  | hindered {stop : Stop} (hindered : stop.Hindered) : Unreached s file number stop
  | unread {fault : Fault} (absent : s.pool.resident? ⟨file.id, number⟩ = none)
      (failed : s.readFromDisk file ⟨file.id, number⟩ = .error fault) :
      Unreached s file number (.fault fault)

namespace StoreAction

open Store

variable {txn : TxnId} {s mid after : Store} {file : TableFile} {number : Nat}
  {values : List Value}

/-! ## Pages that cannot be reached -/

theorem acquire_error {r : LockRequest} {stop : Stop}
    (run : acquire txn r s = (.error stop, after)) : stop.Hindered := by
  unfold acquire at run
  simp only [bind_apply, get_apply, set_apply] at run
  generalize s.locks.request txn r = outcome at run
  obtain ⟨verdict, locks⟩ := outcome
  cases verdict <;> cases run
  · exact .blocked txn r
  · exact .deadlock txn r.page r.mode

theorem readPage_error {mode : LockMode} {stop : Stop}
    (registered : s.catalog.file file.id = .ok file)
    (run : readPage txn ⟨file.id, number⟩ mode s = (.error stop, after)) :
    s.Unreached file number stop := by
  unfold readPage at run
  rcases bind_cases run with ⟨_, stopped, same⟩ | ⟨⟨⟩, mid, acquired, later⟩
  · cases same
    exact .hindered (acquire_error stopped)
  obtain ⟨locks, rfl⟩ := acquire_locks acquired
  unfold fetch at later
  rw [bind_apply, lookup_apply] at later
  cases resident : s.pool.resident? ⟨file.id, number⟩ with
  | some frame =>
      simp only [resident] at later
      cases later
  | none =>
      simp only [resident] at later
      simp only [tableFile, bind_apply, query_apply, registered, Except.mapError] at later
      have image : readFromDisk
          { s with locks, pool := (s.pool.lookup ⟨file.id, number⟩).2 } file ⟨file.id, number⟩ =
            s.readFromDisk file ⟨file.id, number⟩ := rfl
      rw [image] at later
      cases read : s.readFromDisk file ⟨file.id, number⟩ with
      | error fault =>
          rw [read] at later
          cases later
          exact .unread resident read
      | ok page =>
          simp only [read] at later
          unfold bring at later
          simp only [bind_apply, get_apply, ofExcept_apply] at later
          cases brought : (s.pool.lookup ⟨file.id, number⟩).2.bring page with
          | error fault =>
              simp only [brought] at later
              cases later
              rw [Pool.bring_error brought]
              exact .hindered .poolFull
          | ok pair =>
              simp only [brought] at later
              cases later

/-- A page that was not resident has been read from disk. -/
theorem readPage_absent {id : PageId} {mode : LockMode} {frame : Frame} (ok : s.pool.Consistent)
    (absent : s.pool.resident? id = none) (run : readPage txn id mode s = (.ok frame, after)) :
    ∃ file, s.catalog.file id.table = .ok file ∧ s.readFromDisk file id = .ok frame.page := by
  have there := ((readPage_spec ok run).2 frame rfl).1
  obtain ⟨locks, pool, rfl, each⟩ := readPage_turns ok run
  rcases each id with same | ⟨gone, -, -⟩ | ⟨-, -, registered, read, now⟩
  · rw [same] at there
    simp only [absent] at there
    cases there
  · simp only [gone] at there
    cases there
  · simp only [now] at there
    cases there
    exact ⟨_, registered, read⟩

/-- A page is not reached, or the action runs on the page that the transaction sees.  The
table needs to be legible only if the page can be read. -/
theorem changePage_seen {α : Type} {action : PageAction α} {answer : Except Stop (α × Frame)}
    (ok : s.pool.Consistent) (registered : s.catalog.file file.id = .ok file)
    (legible : ∀ frame mid, readPage txn ⟨file.id, number⟩ .exclusive s = (.ok frame, mid) →
      s.Legible file) (stays : ∀ page, (action page).2.id = page.id)
    (run : changePage txn ⟨file.id, number⟩ action s = (answer, after)) :
    (∃ stop, answer = .error stop ∧ s.Reads txn after ∧ s.Unreached file number stop) ∨
      ∃ frame, s.Legible file ∧ frame.id = ⟨file.id, number⟩ ∧
        s.pageFor txn file number = .ok frame.page ∧
          Changes txn s after frame (action frame.page).2 ∧
            answer = match (action frame.page).1 with
            | .ok a => .ok (a, { frame with page := (action frame.page).2 })
            | .error fault => .error (.fault fault) := by
  rcases read : readPage txn ⟨file.id, number⟩ .exclusive s with ⟨stop | frame, mid⟩
  · unfold changePage at run
    rw [bind_apply, read] at run
    cases run
    exact Or.inl ⟨stop, rfl, (readPage_spec ok read).1, readPage_error registered read⟩
  · have sight := legible frame mid read
    obtain ⟨last, ran, own, there, owned, replaces⟩ := changePage_of_read ok stays read
    rw [ran] at run
    cases run
    exact Or.inr ⟨frame, sight, own, (sight.pageFor_of_readPage read).2,
      ⟨mid, (readPage_spec ok read).1, there, owned, replaces⟩, rfl⟩

/-! ## One page -/

/-- The transaction sees a page without a free slot. -/
def FullFor (s : Store) (txn : TxnId) (file : TableFile) (number : Nat) : Prop :=
  ∃ page, s.pageFor txn file number = .ok page ∧ page.freeCount = 0

/-- How it ends if a page of the table is not passed over. -/
inductive Tried (txn : TxnId) (file : TableFile) (values : List Value) (number : Nat)
    (s : Store) : Except Stop (RecordId × Frame) → Store → Prop where
  | stopped {stop : Stop} {after : Store} (reads : s.Reads txn after)
      (unreached : s.Unreached file number stop) :
      Tried txn file values number s (.error stop) after
  | refused {page : Page} {fault : Fault} {after : Store} (reads : s.Reads txn after)
      (legible : s.Legible file) (found : s.pageFor txn file number = .ok page)
      (room : page.freeCount ≠ 0) (refused : page.insert values = .error fault) :
      Tried txn file values number s (.error (.fault fault)) after
  | stored {frame : Frame} {id : RecordId} {page : Page} {after : Store} (legible : s.Legible file)
      (own : frame.id = ⟨file.id, number⟩) (found : s.pageFor txn file number = .ok frame.page)
      (done : frame.page.insert values = .ok (id, page))
      (changes : Changes txn s after frame (page.withMark (some txn))) :
      Tried txn file values number s
        (.ok (id, { frame with page := page.withMark (some txn) })) after

/-- A page is passed over if it is full. -/
theorem changePage_tried {answer : Except Stop (Option RecordId × Frame)}
    (ok : s.pool.Consistent) (registered : s.catalog.file file.id = .ok file)
    (legible : ∀ frame mid, readPage txn ⟨file.id, number⟩ .exclusive s = (.ok frame, mid) →
      s.Legible file)
    (run : changePage txn ⟨file.id, number⟩ (insertIfRoom txn values) s = (answer, after)) :
    (∃ frame, answer = .ok (none, frame) ∧ s.Reads txn after ∧ FullFor s txn file number) ∨
      ∃ reply, Tried txn file values number s reply after ∧
        answer = reply.map fun stored => (some stored.1, stored.2) := by
  rcases changePage_seen ok registered legible (insertIfRoom_id txn values) run with
    ⟨stop, rfl, reads, unreached⟩ | ⟨frame, sight, own, found, changes, reply⟩
  · exact Or.inr ⟨.error stop, .stopped reads unreached, rfl⟩
  rw [insertIfRoom_apply] at changes reply
  by_cases full : frame.page.freeCount = 0
  · rw [if_pos full] at changes reply
    exact Or.inl ⟨_, reply, changes.reads.1, frame.page, found, full⟩
  · rw [if_neg full] at changes reply
    refine Or.inr ?_
    cases inserted : frame.page.insert values with
    | error fault =>
        simp only [inserted] at changes reply
        exact ⟨_, .refused changes.reads.1 sight found full inserted, reply⟩
    | ok pair =>
        simp only [inserted] at changes reply
        exact ⟨_, .stored sight own found inserted changes, reply⟩

/-! ## The pages of a file -/

/-- An appended page can be read only if it is counted. -/
theorem legible_grown (legible : s.Legible file) (frame : Frame) (mid : Store)
    (read : readPage txn ⟨file.id, s.pageCount file⟩ .exclusive (s.grown file) = (.ok frame, mid)) :
    (s.grown file).Legible file := by
  have kept : (s.grown file).pool.Consistent := legible.mirrored.pool
  obtain ⟨held, listed, loaded⟩ := readPage_absent kept (legible.not_resident le_rfl) read
  obtain rfl : held = file := Except.ok.inj (listed.symm.trans legible.registered)
  have counted : s.pageCount held < (s.grown held).pageCount held :=
    (readFromDisk_eq_ok_iff.1 loaded).2.1
  refine ⟨legible.mirrored.grow legible.registered, legible.registered, ?_⟩
  have longer : (s.grown held).wholePages held = s.wholePages held + 1 := legible.wholePages_grown
  by_contra past
  have zero : (s.grown held).pageCount held = 0 := by
    show (s.grown held).wholePages held % PageFile.pageLimit = 0
    have last : s.wholePages held + 1 = PageFile.pageLimit := by
      have fits := legible.fits
      omega
    rw [longer, last, Nat.mod_self]
  omega

theorem not_full_grown (legible : s.Legible file) :
    ¬ FullFor (s.grown file) txn file (s.pageCount file) := by
  rintro ⟨page, found, full⟩
  rw [legible.pageFor_grown, Except.ok.injEq] at found
  rw [← found, Page.freeCount_eq_zero_iff] at full
  have proper := legible.proper
  have sound := Page.sound_zeros ⟨file.id, s.pageCount file⟩ proper.wide proper.roomy
    proper.addressed
  have some := Nat.pos_of_ne_zero sound.roomy
  simpa [Page.isUsed] using full 0 some

/-- Pages are tried from the first to the last.  All of them are passed over, or one is not
and all before it are. -/
theorem insertOnPages_tried {start count : Nat}
    {answer : Except Stop (Option (RecordId × Frame))} (legible : s.Legible file)
    (run : insertOnPages file txn values (List.range' start count) s = (answer, after)) :
    (answer = .ok none ∧ s.Reads txn after ∧
        ∀ number, start ≤ number → number < start + count → FullFor s txn file number) ∨
      ∃ number mid reply, start ≤ number ∧ number < start + count ∧
        (∀ lower, start ≤ lower → lower < number → FullFor s txn file lower) ∧
        s.Reads txn mid ∧ Tried txn file values number mid reply after ∧
          answer = reply.map some := by
  induction count generalizing s start with
  | zero =>
      cases run
      exact Or.inl ⟨rfl, .refl _ _, fun number low high => by omega⟩
  | succ count ih =>
      rw [List.range'_succ, insertOnPages] at run
      rcases bind_cases run with ⟨stop, stopped, rfl⟩ | ⟨⟨reply, frame⟩, mid, passed, later⟩
      · rcases changePage_tried legible.mirrored.pool legible.registered
          (fun _ _ _ => legible) stopped with ⟨frame, same, -⟩ | ⟨reply, tried, same⟩
        · cases same
        · refine Or.inr ⟨start, s, reply, le_rfl, by omega, fun _ low high => by omega,
            .refl _ _, tried, ?_⟩
          cases reply <;> cases same
          rfl
      rcases changePage_tried legible.mirrored.pool legible.registered
        (fun _ _ _ => legible) passed with ⟨frame, same, reads, full⟩ | ⟨reply, tried, same⟩
      · cases same
        have still := legible.reads reads
        have back : ∀ number, FullFor mid txn file number → FullFor s txn file number := by
          rintro number ⟨page, found, none⟩
          exact ⟨page, pageFor_reads reads file number ▸ found, none⟩
        have first : ∀ number, start ≤ number → number < start + 1 → FullFor s txn file number := by
          intro number low high
          rwa [show number = start by omega]
        rcases ih still later with ⟨same, more, each⟩ |
          ⟨number, last, reply, low, high, passed, more, tried, same⟩
        · refine Or.inl ⟨same, reads.trans more, fun number low high => ?_⟩
          by_cases here : number < start + 1
          · exact first number low here
          · exact back number (each number (by omega) (by omega))
        · refine Or.inr ⟨number, last, reply, by omega, by omega, fun lower low below => ?_,
            reads.trans more, tried, same⟩
          by_cases here : lower < start + 1
          · exact first lower low here
          · exact back lower (passed lower (by omega) below)
      · cases reply with
        | error stop => cases same
        | ok stored =>
            cases same
            cases later
            exact Or.inr ⟨start, s, .ok stored, le_rfl, by omega, fun _ low high => by omega,
              .refl _ _, tried, rfl⟩

/-- The page that is appended is tried, and is never passed over. -/
theorem insertOnNewPage_tried {attempts : Nat} {answer : Except Stop (RecordId × Frame)}
    (legible : s.Legible file)
    (run : insertOnNewPage file txn values (attempts + 1) s = (answer, after)) :
    Tried txn file values (s.pageCount file) (s.grown file) answer after := by
  have kept : (s.grown file).pool.Consistent := legible.mirrored.pool
  have listed : (s.grown file).catalog.file file.id = .ok file := legible.registered
  rw [insertOnNewPage, bind_apply, appendPage_apply] at run
  simp only at run
  rcases bind_cases run with ⟨stop, stopped, rfl⟩ | ⟨⟨reply, frame⟩, mid, passed, later⟩
  · rcases changePage_tried kept listed (legible_grown legible) stopped with
      ⟨frame, same, -⟩ | ⟨reply, tried, same⟩
    · cases same
    · cases reply <;> cases same
      exact tried
  · rcases changePage_tried kept listed (legible_grown legible) passed with
      ⟨frame, -, -, full⟩ | ⟨reply, tried, same⟩
    · exact absurd full (not_full_grown legible)
    · cases reply <;> cases same
      cases later
      exact tried

/-- The page that an insert comes to: one of the file, or one that it appends. -/
inductive ComesTo (txn : TxnId) (file : TableFile) (s : Store) : Nat → Store → Prop where
  | old {number : Nat} {mid : Store} (reads : s.Reads txn mid)
      (inside : number < s.pageCount file) : ComesTo txn file s number mid
  | new {mid : Store} (reads : s.Reads txn mid) :
      ComesTo txn file s (s.pageCount file) (mid.grown file)

/-- Behind the check of the row, an insert passes over full pages and tries one that is not. -/
theorem insertInFile_tried {answer : Except Stop (RecordId × Frame)} (legible : s.Legible file)
    (run : insertInFile file txn values s = (answer, after)) :
    (∃ cause, file.schema.check values = .error cause ∧
        answer = .error (.fault (.badShape cause)) ∧ after = s) ∨
      file.schema.check values = .ok () ∧ ∃ number base, ComesTo txn file s number base ∧
        (∀ lower, lower < number → FullFor s txn file lower) ∧
        Tried txn file values number base answer after := by
  unfold insertInFile at run
  rw [bind_apply, ofExcept_apply] at run
  cases checked : file.schema.check values with
  | error cause =>
      rw [checked] at run
      cases run
      exact Or.inl ⟨cause, rfl, rfl, rfl⟩
  | ok =>
      rw [checked] at run
      simp only [Except.mapError, bind_apply, get_apply, List.range_eq_range'] at run
      refine Or.inr ⟨rfl, ?_⟩
      rcases pages : insertOnPages file txn values (List.range' 0 (s.pageCount file)) s with
        ⟨answered, mid⟩
      rw [pages] at run
      rcases insertOnPages_tried legible pages with
        ⟨same, reads, full⟩ | ⟨number, last, reply, -, inside, full, reads, tried, same⟩
      · subst same
        simp only [bind_apply, get_apply] at run
        have count : mid.pageCount file = s.pageCount file := (views_congr reads.disk file).2.1
        have tried := insertOnNewPage_tried (legible.reads reads) run
        rw [count] at tried
        exact ⟨_, _, .new reads, fun lower below => full lower (Nat.zero_le _) (by omega), tried⟩
      · rw [Nat.zero_add] at inside
        refine ⟨number, last, .old reads inside,
          fun lower below => full lower (Nat.zero_le _) below, ?_⟩
        subst same
        cases reply <;> cases run <;> exact tried

/-- The same of a call to insert a row. -/
theorem insertRow_tried {answer : Except Stop RecordId} (legible : s.Legible file)
    (run : insertRow txn file.id values s = (answer, after)) :
    (∃ cause, file.schema.check values = .error cause ∧
        answer = .error (.fault (.badShape cause)) ∧ after = s) ∨
      file.schema.check values = .ok () ∧ ∃ number base reply, ComesTo txn file s number base ∧
        (∀ lower, lower < number → FullFor s txn file lower) ∧
        Tried txn file values number base reply after ∧ answer = reply.map Prod.fst := by
  unfold insertRow at run
  simp only [tableFile, bind_apply, query_apply, legible.registered, Except.mapError] at run
  rcases inserted : insertInFile file txn values s with ⟨stop | ⟨id, changed⟩, mid⟩
  · rw [inserted] at run
    cases run
    rcases insertInFile_tried legible inserted with
      ⟨cause, refused, same, still⟩ | ⟨checked, number, base, comes, full, tried⟩
    · cases same
      exact Or.inl ⟨cause, refused, rfl, still⟩
    · exact Or.inr ⟨checked, number, base, _, comes, full, tried, rfl⟩
  · rw [inserted] at run
    rcases insertInFile_tried legible inserted with
      ⟨cause, -, same, -⟩ | ⟨checked, number, base, comes, full, tried⟩
    · cases same
    · cases tried with
      | stored sight own found done changes =>
          rcases marked : markChanged txn _ mid with ⟨fine, last⟩
          obtain ⟨rfl, again⟩ := markChanged_changes changes marked
          simp only [marked] at run
          cases run
          exact Or.inr ⟨checked, number, base, _, comes, full, .stored sight own found done again,
            rfl⟩

/-! ## The page of a deleted row -/

/-- How a delete ends whose row would be on a page of the table. -/
inductive Erased (txn : TxnId) (file : TableFile) (id : RecordId) (s : Store) :
    Except Stop Frame → Store → Prop where
  | uncounted (past : s.pageCount file ≤ id.page.number) :
      Erased txn file id s (.error (.fault (.rowNotFound id))) s
  | stopped {stop : Stop} {after : Store} (inside : id.page.number < s.pageCount file)
      (reads : s.Reads txn after) (unreached : s.Unreached file id.page.number stop) :
      Erased txn file id s (.error stop) after
  | refused {page : Page} {fault : Fault} {after : Store} (reads : s.Reads txn after)
      (found : s.pageFor txn file id.page.number = .ok page)
      (refused : page.delete id = .error fault) :
      Erased txn file id s (.error (.fault (noRowAt id fault))) after
  | done {frame : Frame} {rest : Page} {after : Store} (own : frame.id = id.page)
      (found : s.pageFor txn file id.page.number = .ok frame.page)
      (done : frame.page.delete id = .ok rest)
      (changes : Changes txn s after frame (rest.withMark (some txn))) :
      Erased txn file id s (.ok { frame with page := rest.withMark (some txn) }) after

/-- A row on a page that is not counted is not even looked for. -/
theorem deleteRow_uncounted {row : Row} {id : RecordId} (txn : TxnId)
    (registered : s.catalog.file file.id = .ok file) (named : row.id? = some id)
    (own : id.page.table = file.id) (past : s.pageCount file ≤ id.page.number) :
    deleteRow txn row s = (.error (.fault (.rowNotFound id)), s) := by
  unfold deleteRow deleteInFile TableFile.checkOwner
  simp only [named, own, tableFile, bind_apply, query_apply, registered, Except.mapError, if_true,
    ofExcept_apply, get_apply]
  rw [if_pos past]
  rfl

theorem deleteInFile_erased {row : Row} {id : RecordId} {answer : Except Stop Frame}
    (legible : s.Legible file) (named : row.id? = some id) (own : id.page.table = file.id)
    (run : deleteInFile file txn row s = (answer, after)) : Erased txn file id s answer after := by
  obtain ⟨⟨table, number⟩, slot⟩ := id
  obtain rfl : table = file.id := own
  unfold deleteInFile TableFile.checkOwner at run
  simp only [named, if_true] at run
  rw [bind_apply, ofExcept_apply] at run
  simp only [Except.mapError] at run
  rw [bind_apply, get_apply] at run
  simp only at run
  by_cases past : s.pageCount file ≤ number
  · rw [if_pos past] at run
    cases run
    exact .uncounted past
  · have inside : number < s.pageCount file := Nat.not_le.1 past
    rw [if_neg past] at run
    have tried : (changePage txn ⟨file.id, number⟩ (eraseRow txn ⟨⟨file.id, number⟩, slot⟩) >>=
        fun changed => pure changed.2) s = (answer, after) := run
    rcases erased : changePage txn ⟨file.id, number⟩ (eraseRow txn ⟨⟨file.id, number⟩, slot⟩) s with
      ⟨reply, mid⟩
    rw [bind_apply, erased] at tried
    rcases changePage_seen legible.mirrored.pool legible.registered (fun _ _ _ => legible)
      (eraseRow_id txn _) erased with
        ⟨stop, rfl, reads, unreached⟩ | ⟨frame, -, here, found, changes, rfl⟩
    · cases tried
      exact .stopped inside reads unreached
    · rcases eraseRow_cases txn ⟨⟨file.id, number⟩, slot⟩ frame.page with
        ⟨fault, refused, same⟩ | ⟨rest, done, same⟩ <;> rw [same] at changes tried <;> cases tried
      · exact .refused changes.reads.1 found refused
      · exact .done here found done changes

/-- The same of a call to delete a row. -/
theorem deleteRow_erased {row : Row} {id : RecordId} {answer : Except Stop Unit}
    (legible : s.Legible file) (named : row.id? = some id) (own : id.page.table = file.id)
    (run : deleteRow txn row s = (answer, after)) :
    ∃ reply, Erased txn file id s reply after ∧ answer = reply.map fun _ => () := by
  unfold deleteRow at run
  simp only [named, own, tableFile, bind_apply, query_apply, legible.registered,
    Except.mapError] at run
  rcases erased : deleteInFile file txn row s with ⟨stop | changed, mid⟩
  · rw [erased] at run
    cases run
    exact ⟨_, deleteInFile_erased legible named own erased, rfl⟩
  · rw [erased] at run
    cases deleteInFile_erased legible named own erased with
    | done here found done changes =>
        rcases marked : markChanged txn _ mid with ⟨fine, last⟩
        obtain ⟨rfl, again⟩ := markChanged_changes changes marked
        simp only [marked] at run
        cases run
        exact ⟨_, .done here found done again, rfl⟩

end StoreAction

end RowStore
