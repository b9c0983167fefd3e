/-
# RowStore.Proofs.Lock.Parking -- no parked request is forgotten

A parked request depends on three things: it is counted at its page, the page's entry
still has the bell it parked on, and as long as the bell has not rung there is
somebody whose release will ring it.  `Attended` states them, with what makes a bell
belong to one page only.

Entries come and go: a grant makes one, a release and a request that goes on may
each drop one.  The count decides which may be dropped, so the proofs follow two
more views of a table, the number of requests parked on a page (`waiters`) and the
bell of its entry (`bell?`).
-/
import Mathlib.Data.List.Count
import Mathlib.Data.List.Permutation
import RowStore.Proofs.Lock.Runs

namespace RowStore

set_option autoImplicit false

namespace LockTable

/-! ## Counts and bells -/

/-- The number of requests that the entry of a page counts. -/
def waiters (t : LockTable) (page : PageId) : Nat :=
  match t.pages.get? page with
  | some entry => entry.waiters
  | none => 0

/-- The bell of a page's entry. -/
def bell? (t : LockTable) (page : PageId) : Option Nat := (t.pages.get? page).map LockEntry.bell

/-- Every bell is older than the next one and belongs to one page. -/
structure BellsApart (t : LockTable) : Prop where
  issued : ∀ page bell, t.bell? page = some bell → bell < t.nextBell
  apart : ∀ page other bell, t.bell? page = some bell → t.bell? other = some bell → page = other

variable (t : LockTable) (txn : TxnId)

@[simp] theorem waiters_grant (r : LockRequest) (page : PageId) :
    (t.grant txn r).waiters page = t.waiters page := by
  unfold grant waiters
  cases found : t.pages.get? r.page with
  | none => by_cases same : page = r.page <;> simp [same, found]
  | some entry => by_cases same : page = r.page <;> simp [same, found]

theorem bell?_grant (r : LockRequest) (page : PageId) :
    (t.grant txn r).bell? page =
      if page = r.page then some ((t.bell? r.page).getD t.nextBell) else t.bell? page := by
  unfold grant bell?
  cases found : t.pages.get? r.page with
  | none => by_cases same : page = r.page <;> simp [same]
  | some entry => by_cases same : page = r.page <;> simp [same]

theorem nextBell_grant_le (r : LockRequest) : t.nextBell ≤ (t.grant txn r).nextBell := by
  unfold grant
  split
  · exact Nat.le_refl _
  · exact Nat.le_succ _

variable {t}

theorem BellsApart.grant (bells : t.BellsApart) (r : LockRequest) :
    (t.grant txn r).BellsApart := by
  cases old : t.bell? r.page with
  | some bell =>
      have same : ∀ page, (t.grant txn r).bell? page = t.bell? page := by
        intro page
        rw [bell?_grant, old]
        split
        · rename_i here
          rw [here, old]
          rfl
        · rfl
      refine ⟨fun page b found => ?_, fun page other b found there => ?_⟩
      · rw [same] at found
        exact Nat.lt_of_lt_of_le (bells.issued page b found) (t.nextBell_grant_le txn r)
      · rw [same] at found there
        exact bells.apart page other b found there
  | none =>
      -- The page gets the next bell, which no other page has yet.
      have next : (t.grant txn r).nextBell = t.nextBell + 1 := by
        have absent : t.pages.get? r.page = none := by simpa [bell?] using old
        simp [LockTable.grant, absent]
      have bell : ∀ page b, (t.grant txn r).bell? page = some b →
          page = r.page ∧ b = t.nextBell ∨ page ≠ r.page ∧ t.bell? page = some b := by
        intro page b found
        rw [bell?_grant, old] at found
        split at found
        · rename_i here
          exact Or.inl ⟨here, by simpa using found.symm⟩
        · rename_i elsewhere
          exact Or.inr ⟨elsewhere, found⟩
      refine ⟨fun page b found => ?_, fun page other b found there => ?_⟩
      · rw [next]
        rcases bell page b found with ⟨-, rfl⟩ | ⟨-, older⟩
        · exact Nat.lt_succ_self _
        · exact Nat.lt_succ_of_lt (bells.issued page b older)
      · rcases bell page b found with ⟨rfl, new⟩ | ⟨-, older⟩ <;>
          rcases bell other b there with ⟨rfl, new'⟩ | ⟨-, older'⟩
        · rfl
        · exact absurd (bells.issued other b older') (by omega)
        · exact absurd (bells.issued page b older) (by omega)
        · exact bells.apart page other b older older'

/-- What drops entries only, and none that is still counted at. -/
structure Prunes (t after : LockTable) : Prop where
  nextBell : after.nextBell = t.nextBell
  bell : ∀ page, after.bell? page = t.bell? page ∨
    after.bell? page = none ∧ after.waiters page = 0

theorem Prunes.apart {after : LockTable} (prunes : t.Prunes after) (bells : t.BellsApart) :
    after.BellsApart := by
  have older : ∀ page b, after.bell? page = some b → t.bell? page = some b := by
    intro page b found
    rcases prunes.bell page with same | ⟨gone, -⟩
    · rw [← same, found]
    · rw [gone] at found
      cases found
  refine ⟨fun page b found => ?_, fun page other b found there => ?_⟩
  · rw [prunes.nextBell]
    exact bells.issued page b (older page b found)
  · exact bells.apart page other b (older page b found) (older other b there)

theorem Prunes.kept {after : LockTable} (prunes : t.Prunes after) {page : PageId}
    (counted : 0 < after.waiters page) : after.bell? page = t.bell? page := by
  rcases prunes.bell page with same | ⟨-, bare⟩
  · exact same
  · omega

variable (t)

/-- Dropping an idle entry changes no count. -/
@[simp] theorem waiters_sweep (swept page : PageId) :
    (t.sweep swept).waiters page = t.waiters page := by
  unfold sweep
  cases found : t.pages.get? swept with
  | none => rfl
  | some entry =>
      dsimp only
      split
      · rename_i idle
        have none : entry.waiters = 0 := by
          simp only [LockEntry.isIdle, Bool.and_eq_true, beq_iff_eq] at idle
          exact idle.2
        by_cases same : page = swept <;> simp [waiters, same, found, none]
      · rfl

theorem prunes_sweep (swept : PageId) : t.Prunes (t.sweep swept) := by
  have counts := t.waiters_sweep swept
  refine ⟨?_, fun page => ?_⟩
  · unfold sweep
    split
    · split <;> rfl
    · rfl
  · rw [counts]
    unfold sweep
    cases found : t.pages.get? swept with
    | none => exact Or.inl rfl
    | some entry =>
        dsimp only
        split
        · rename_i idle
          by_cases same : page = swept
          · subst same
            simp only [LockEntry.isIdle, Bool.and_eq_true, beq_iff_eq] at idle
            exact Or.inr ⟨by simp [bell?], by simp [waiters, found, idle.2]⟩
          · exact Or.inl (by simp [bell?, same])
        · exact Or.inl rfl

variable {t}

/-- Writing an entry back with its bell changes no bell. -/
theorem bell?_update {page : PageId} {entry kept : LockEntry}
    (found : t.pages.get? page = some entry) (same : kept.bell = entry.bell) (p : PageId) :
    bell? { t with pages := t.pages.insert page kept } p = t.bell? p := by
  by_cases here : p = page <;> simp [bell?, here, found, same]

theorem prunes_update {page : PageId} {entry kept : LockEntry}
    (found : t.pages.get? page = some entry) (same : kept.bell = entry.bell) :
    t.Prunes (sweep { t with pages := t.pages.insert page kept } page) := by
  have swept := prunes_sweep { t with pages := t.pages.insert page kept } page
  refine ⟨swept.nextBell, fun p => ?_⟩
  rw [← bell?_update found same p]
  exact swept.bell p

variable (t)

theorem waiters_release (released page : PageId) :
    (t.release txn released).2.waiters page = t.waiters page := by
  unfold release
  cases found : t.pages.get? released with
  | none => rfl
  | some entry =>
      rw [waiters_sweep]
      by_cases same : page = released <;> simp [waiters, same, found]

theorem prunes_release (released : PageId) : t.Prunes (t.release txn released).2 := by
  unfold release
  cases found : t.pages.get? released with
  | none => exact ⟨rfl, fun _ => Or.inl rfl⟩
  | some entry => exact prunes_update found rfl

/-- A release that finds no lock of the transaction changes no lock. -/
theorem holders_release_of_not_held {released : PageId}
    (unheld : (t.release txn released).1 = false) (page : PageId) :
    (t.release txn released).2.holders page = t.holders page := by
  rw [holders_release]
  split
  · rename_i here
    subst here
    refine others_eq_self fun l there own => ?_
    cases found : t.pages.get? page with
    | none => simp [holders, found] at there
    | some entry =>
        simp only [holders, found] at there
        simp only [release, found, decide_eq_false_iff_not, Nat.not_lt] at unheld
        have all := List.length_filter_eq_length_iff.1
          (Nat.le_antisymm (List.length_filter_le _ _) unheld) l there
        simp [own] at all
  · rfl

/-- Nobody stops being in the way because another transaction gets a lock. -/
theorem mem_blockers_of_grant {r wanted : LockRequest} {a b : TxnId}
    (unserved : t.serves txn r = false) (blocks : b ∈ t.blockers a wanted) :
    b ∈ (t.grant txn r).blockers a wanted := by
  obtain ⟨l, there, rfl, other, against⟩ := (mem_blockers _ _).1 blocks
  rw [mem_blockers]
  by_cases here : wanted.page = r.page
  · by_cases own : l.txn = txn
    · -- The lock in the way is strengthened, so it stays in the way.
      have wants : r.mode = .exclusive := by
        rcases t.not_serves txn unserved with none | ⟨-, wants⟩
        · exact absurd own ((t.heldMode_eq_none_iff txn).1 none l (here ▸ there))
        · exact wants
      refine ⟨⟨txn, r.mode⟩, ?_, own.symm, own ▸ other, ?_⟩
      · rw [holders_grant, if_pos here]
        exact self_mem_addHolder txn _ _
      · rw [wants, LockMode.exclusive_compatible]
    · refine ⟨l, ?_, rfl, other, against⟩
      have kept : l ∈ others (addHolder (t.holders r.page) txn r.mode) txn := by
        rw [others_addHolder]
        exact mem_others.2 ⟨here ▸ there, own⟩
      rw [holders_grant, if_pos here]
      exact (mem_others.1 kept).1
  · exact ⟨l, by rwa [holders_grant, if_neg here], rfl, other, against⟩

theorem blockers_congr {t after : LockTable} {wanted : LockRequest}
    (same : after.holders wanted.page = t.holders wanted.page) (a : TxnId) :
    after.blockers a wanted = t.blockers a wanted := by
  unfold blockers
  rw [same]

end LockTable

namespace LockRoom

open LockTable

/-- The number of requests parked on a page. -/
def parkedOn (room : LockRoom) (page : PageId) : Nat :=
  room.parked.countP fun p => decide (p.request.page = page)

/-- Every parked request is counted at its page, has the bell of the page's entry and is
stopped by somebody unless the bell has rung. -/
structure Attended (room : LockRoom) : Prop where
  counted : ∀ page, room.table.waiters page = room.parkedOn page
  attached : ∀ p ∈ room.parked, room.table.bell? p.request.page = some p.bell
  stopped : ∀ p ∈ room.parked, p.rung = false → room.table.blockers p.txn p.request ≠ []
  bells : room.table.BellsApart

theorem attended_empty : empty.Attended := by
  refine ⟨fun _ => rfl, by simp [empty], by simp [empty], fun _ _ found => ?_, fun _ _ _ found => ?_⟩
  · cases found
  · cases found

variable {room : LockRoom}

theorem Attended.counts (ok : room.Attended) {p : ParkedRequest} (member : p ∈ room.parked) :
    0 < room.table.waiters p.request.page := by
  rw [ok.counted]
  exact List.countP_pos_iff.2 ⟨p, member, by simp⟩

/-- Two parked requests have one bell exactly if they wait at one page. -/
theorem Attended.bell_eq_iff (ok : room.Attended) {p q : ParkedRequest}
    (first : p ∈ room.parked) (second : q ∈ room.parked) :
    p.bell = q.bell ↔ p.request.page = q.request.page := by
  have here := ok.attached p first
  have there := ok.attached q second
  constructor
  · intro same
    exact ok.bells.apart _ _ p.bell here (same ▸ there)
  · intro same
    rw [same, there, Option.some.injEq] at here
    exact here.symm

/-! ## One operation -/

/-- An operation that grants at most, and counts as before. -/
theorem Attended.withTable {t : LockTable} (ok : room.Attended)
    (waiters : ∀ page, t.waiters page = room.table.waiters page)
    (bell : ∀ p ∈ room.parked, t.bell? p.request.page = room.table.bell? p.request.page)
    (blockers : ∀ p ∈ room.parked, ∀ b ∈ room.table.blockers p.txn p.request,
      b ∈ t.blockers p.txn p.request)
    (bells : t.BellsApart) : Attended { room with table := t } := by
  refine ⟨fun page => ?_, fun p member => ?_, fun p member silent none => ?_, bells⟩
  · rw [waiters, ok.counted]
    rfl
  · rw [bell p member, ok.attached p member]
  · obtain ⟨b, blocks⟩ := List.exists_mem_of_ne_nil _ (ok.stopped p member silent)
    have still := blockers p member b blocks
    simp only [] at none
    simp [none] at still

theorem Attended.grant (ok : room.Attended) {txn : TxnId} {r : LockRequest}
    (unserved : room.table.serves txn r = false) :
    Attended { room with table := (room.table.grant txn r).unregister txn } := by
  have bells := ok.bells.grant txn r
  refine ok.withTable (waiters_grant _ _ _) (fun p member => ?_)
    (fun p _ b blocks => mem_blockers_of_grant _ txn unserved blocks) ⟨bells.issued, bells.apart⟩
  show (room.table.grant txn r).bell? p.request.page = _
  rw [bell?_grant]
  split
  · rename_i here
    rw [← here, ok.attached p member]
    rfl
  · rfl

theorem Attended.request (ok : room.Attended) (txn : TxnId) (r : LockRequest) :
    Attended { room with table := (room.table.request txn r).2 } := by
  have same : ∀ t : LockTable, t.pages = room.table.pages → t.nextBell = room.table.nextBell →
      Attended { room with table := t } := by
    intro t pages next
    refine ok.withTable ?_ ?_ ?_ ⟨?_, ?_⟩
    · intro page
      simp [waiters, pages]
    · intro p _
      simp [bell?, pages]
    · intro p _ b blocks
      simpa [blockers, holders, pages] using blocks
    · simpa [bell?, pages, next] using ok.bells.issued
    · simpa [bell?, pages] using ok.bells.apart
  rcases room.table.request_cases txn r with
    ⟨-, answer⟩ | ⟨unserved, ⟨-, answer⟩ | ⟨-, ⟨-, answer⟩ | ⟨-, answer⟩⟩⟩ <;> rw [answer]
  · exact same _ rfl rfl
  · exact ok.grant unserved
  · exact same _ rfl rfl
  · exact same _ rfl rfl

/-- A request that is stopped now may park. -/
theorem Attended.park (ok : room.Attended) {txn : TxnId} {r : LockRequest}
    (stopped : room.table.blockers txn r ≠ []) : (room.park txn r).Attended := by
  unfold LockRoom.park
  cases found : room.table.pages.get? r.page with
  | none => exact ok
  | some entry =>
      have view := sameView_count found (entry.waiters + 1)
      have bell := bell?_update found
        (show LockEntry.bell { entry with waiters := entry.waiters + 1 } = entry.bell from rfl)
      refine ⟨fun page => ?_, fun p member => ?_, fun p member silent => ?_, ⟨?_, ?_⟩⟩
      · have before := ok.counted page
        simp only [parkedOn, List.countP_append, List.countP_singleton] at before ⊢
        by_cases here : page = r.page
        · subst here
          simp only [waiters, found] at before
          simp [waiters, before]
        · simp only [waiters] at before
          simp [waiters, here, Ne.symm here, before]
      · rw [bell]
        rcases List.mem_append.1 member with there | last
        · exact ok.attached p there
        · rw [List.mem_singleton.1 last]
          simp [bell?, found]
      · rw [blockers_congr (view.holders p.request.page)]
        rcases List.mem_append.1 member with there | last
        · exact ok.stopped p there silent
        · rw [List.mem_singleton.1 last]
          exact stopped
      · intro page b
        rw [bell]
        exact ok.bells.issued page b
      · intro page other b
        rw [bell, bell]
        exact ok.bells.apart page other b

theorem Attended.attempt (ok : room.Attended) (txn : TxnId) (r : LockRequest) :
    (room.attempt txn r).2.Attended := by
  have after := ok.request txn r
  unfold LockRoom.attempt
  rcases room.table.request_cases txn r with
    ⟨-, answer⟩ | ⟨-, ⟨-, answer⟩ | ⟨stopped, ⟨-, answer⟩ | ⟨-, answer⟩⟩⟩ <;>
    rw [answer] at after ⊢
  · exact after
  · exact after
  · exact after
  · exact after.park stopped

/-- A request that goes on takes its count and nothing that others depend on. -/
theorem Attended.countOut (ok : room.Attended) {p : ParkedRequest} (member : p ∈ room.parked) :
    Attended ⟨LockRoom.countOut room.table p.request.page, room.parked.erase p⟩ := by
  obtain ⟨entry, found, -⟩ := Option.map_eq_some_iff.1 (ok.attached p member)
  have counted : ∀ page, (LockRoom.countOut room.table p.request.page).waiters page =
      (room.parked.erase p).countP fun q => decide (q.request.page = page) := by
    intro page
    have before := ok.counted page
    unfold LockRoom.countOut
    simp only [found]
    rw [waiters_sweep, List.countP_erase]
    by_cases here : page = p.request.page
    · subst here
      simp only [waiters, found, parkedOn] at before
      simp [waiters, before, member]
    · simp only [waiters, parkedOn] at before
      simp [waiters, here, Ne.symm here, before]
  have prunes : room.table.Prunes (LockRoom.countOut room.table p.request.page) := by
    unfold LockRoom.countOut
    simp only [found]
    exact prunes_update found rfl
  refine ⟨counted, fun q there => ?_, fun q there silent => ?_, prunes.apart ok.bells⟩
  · rw [prunes.kept ?_]
    · exact ok.attached q (List.mem_of_mem_erase there)
    · rw [counted]
      exact List.countP_pos_iff.2 ⟨q, there, by simp⟩
  · rw [blockers_congr ((sameView_countOut _ _).holders _)]
    exact ok.stopped q (List.mem_of_mem_erase there) silent

/-! ## Releases -/

/-- What a release leaves parked: the same requests, and those on the page are rung if
a lock went away. -/
theorem parked_release (ok : room.Attended) (txn : TxnId) (page : PageId) :
    (room.release txn page).2.parked = room.parked.map fun p =>
      if (room.table.release txn page).1 = true ∧ p.request.page = page then
        { p with rung := true }
      else p := by
  unfold LockRoom.release
  cases answer : room.table.release txn page with
  | mk released table =>
      cases released with
      | false => simp
      | true =>
          cases found : room.table.pages.get? page with
          | none => simp [LockTable.release, found] at answer
          | some entry =>
              refine List.map_congr_left fun p member => ?_
              have bell : room.table.bell? page = some entry.bell := by simp [bell?, found]
              have here : p.bell = entry.bell ↔ p.request.page = page := by
                constructor
                · intro same
                  exact ok.bells.apart _ _ p.bell (ok.attached p member) (same ▸ bell)
                · intro same
                  have own := ok.attached p member
                  rw [same, bell, Option.some.injEq] at own
                  exact own.symm
              simp [here]

theorem Attended.release (ok : room.Attended) (txn : TxnId) (page : PageId) :
    (room.release txn page).2.Attended := by
  have parked := parked_release ok txn page
  have same : ∀ p ∈ (room.release txn page).2.parked, ∃ q ∈ room.parked, q.txn = p.txn ∧
      q.request = p.request ∧ q.bell = p.bell ∧ (p.rung = false → q.rung = false ∧
        ((room.table.release txn page).1 = false ∨ p.request.page ≠ page)) := by
    intro p member
    rw [parked] at member
    obtain ⟨q, there, rfl⟩ := List.mem_map.1 member
    refine ⟨q, there, ?_⟩
    split
    · exact ⟨rfl, rfl, rfl, fun silent => by cases silent⟩
    · rename_i quiet
      refine ⟨rfl, rfl, rfl, fun silent => ⟨silent, ?_⟩⟩
      cases released : (room.table.release txn page).1 with
      | false => exact Or.inl rfl
      | true => exact Or.inr fun here => quiet ⟨released, here⟩
  have prunes := prunes_release room.table txn page
  have counted : ∀ q, (room.release txn page).2.table.waiters q =
      (room.release txn page).2.parkedOn q := by
    intro q
    rw [table_release, waiters_release, ok.counted, parkedOn, parkedOn, parked, List.countP_map]
    refine List.countP_congr fun p _ => ?_
    simp only [Function.comp]
    split <;> rfl
  refine ⟨counted, fun p member => ?_, fun p member silent => ?_, ?_⟩
  · have counts : 0 < (room.table.release txn page).2.waiters p.request.page := by
      rw [← table_release, counted]
      exact List.countP_pos_iff.2 ⟨p, member, by simp⟩
    obtain ⟨q, there, -, request, bell, -⟩ := same p member
    rw [table_release, prunes.kept counts, ← request, ← bell]
    exact ok.attached q there
  · obtain ⟨q, there, owner, request, -, quiet⟩ := same p member
    obtain ⟨asleep, untouched⟩ := quiet silent
    have holders : (room.table.release txn page).2.holders p.request.page =
        room.table.holders p.request.page := by
      rcases untouched with unheld | elsewhere
      · exact holders_release_of_not_held _ txn unheld _
      · rw [holders_release, if_neg elsewhere]
    rw [table_release, blockers_congr holders, ← owner, ← request]
    exact ok.stopped q there asleep
  · rw [table_release]
    exact prunes.apart ok.bells

theorem Attended.releaseAll (ok : room.Attended) (txn : TxnId) :
    (room.releaseAll txn).2.Attended := by
  have each : ∀ (pages : List PageId) {start : LockRoom}, start.Attended →
      (pages.foldl (fun r page => (r.release txn page).2) start).Attended := by
    intro pages
    induction pages with
    | nil => exact id
    | cons page rest ih => exact fun start => ih (start.release txn page)
  refine each _ (ok.withTable (fun _ => rfl) (fun _ _ => rfl) (fun _ _ _ blocks => blocks) ?_)
  exact ⟨ok.bells.issued, ok.bells.apart⟩

/-! ## Runs -/

theorem Attended.step (ok : room.Attended) (call : LockCall) : (room.step call).Attended := by
  cases call with
  | grant txn r => exact ok.request txn r
  | acquire txn r => exact ok.attempt txn r
  | release txn page => exact ok.release txn page
  | releaseAll txn => exact ok.releaseAll txn
  | resume place =>
      simp only [LockRoom.step]
      cases found : room.parked[place]? with
      | none => exact ok
      | some p => exact (ok.countOut (List.mem_of_getElem? found)).attempt p.txn p.request

theorem attended_run (calls : List LockCall) : (run calls).Attended := by
  induction calls using List.reverseRecOn with
  | nil => exact attended_empty
  | append_singleton calls call ih => rw [run_snoc]; exact ih.step call

/-- **No lost wake-up.**  After every run: each page counts exactly the requests parked
there, rung or not; the entry of each of their pages still has the bell they parked
on, which is nobody's at another page, and its count is not yet down to zero; and a
request whose bell has not rung is stopped by another transaction's lock that stands
on the page now. -/
theorem parked_run (calls : List LockCall) :
    (∀ page, (run calls).table.waiters page = (run calls).parkedOn page) ∧
      (∀ p ∈ (run calls).parked,
        (∃ entry, (run calls).table.pages.get? p.request.page = some entry ∧
          entry.bell = p.bell ∧ 0 < entry.waiters) ∧
        (∀ q ∈ (run calls).parked, q.bell = p.bell ↔ q.request.page = p.request.page) ∧
        (p.rung = false → ∃ l ∈ (run calls).table.holders p.request.page,
          l.txn ≠ p.txn ∧ l.mode.compatible p.request.mode = false)) := by
  have ok := attended_run calls
  refine ⟨ok.counted, fun p member => ⟨?_, fun q there => ok.bell_eq_iff there member, ?_⟩⟩
  · obtain ⟨entry, found, bell⟩ := Option.map_eq_some_iff.1 (ok.attached p member)
    have counts := ok.counts member
    simp only [waiters, found] at counts
    exact ⟨entry, found, bell, counts⟩
  · intro silent
    obtain ⟨b, blocks⟩ := List.exists_mem_of_ne_nil _ (ok.stopped p member silent)
    obtain ⟨l, there, -, other, against⟩ := (mem_blockers _ _).1 blocks
    exact ⟨l, there, other, against⟩

/-- A reader that wants to write stays parked behind the other reader, while a release
elsewhere rings for the request that is parked there. -/
theorem parked_run_upgrade :
    let page : PageId := ⟨1, 0⟩
    let elsewhere : PageId := ⟨1, 1⟩
    let calls : List LockCall :=
      [.acquire ⟨1⟩ ⟨page, .shared⟩, .acquire ⟨2⟩ ⟨page, .shared⟩,
        .acquire ⟨1⟩ ⟨page, .exclusive⟩, .acquire ⟨3⟩ ⟨elsewhere, .exclusive⟩,
        .acquire ⟨4⟩ ⟨elsewhere, .shared⟩, .releaseAll ⟨3⟩]
    let stays : ParkedRequest := ⟨⟨1⟩, ⟨page, .exclusive⟩, 0, false⟩
    (run calls).parked = [stays, ⟨⟨4⟩, ⟨elsewhere, .shared⟩, 1, true⟩] ∧
      (run calls).table.waiters page = (run calls).parkedOn page ∧
      ∃ l ∈ (run calls).table.holders page, l.txn ≠ ⟨1⟩ ∧ l.mode.compatible .exclusive = false := by
  intro page elsewhere calls stays
  have parked : (run calls).parked = [stays, ⟨⟨4⟩, ⟨elsewhere, .shared⟩, 1, true⟩] := by cbv
  exact ⟨parked, (parked_run calls).1 page,
    ((parked_run calls).2 stays (by rw [parked]; exact List.mem_cons_self ..)).2.2 rfl⟩

end LockRoom

end RowStore
