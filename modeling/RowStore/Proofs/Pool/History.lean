/-
# RowStore.Proofs.Pool.History -- the page that leaves was accessed longest ago

The recency order knows frames and no pages, and it is edited in its middle: a frame that
is emptied is taken out, and whatever page comes next goes to its end.  Beside it stands
the history of the pool, which knows pages only: every access in the order in which they
happened.  `Older` compares two pages in a history, and a `Dated` pool is one whose
recency order agrees with it.

Everything that happens to a pool is one of a few events (`Event`), and each keeps the
two in step (`Dated.event`).  So the first frame of the order that may go holds the page
that the history makes the oldest of the clean ones (`Dated.bring_cases`).
-/
import RowStore.Proofs.Pool.Consistency

namespace RowStore

set_option autoImplicit false

/-! ## Histories -/

/-- In this history `b` was accessed after the last access to `a`. -/
def Older {α : Type} (history : List α) (a b : α) : Prop :=
  ∃ early late, history = early ++ late ∧ a ∉ late ∧ b ∈ late

section

variable {α : Type} {history : List α} {a b : α}

theorem Older.append (older : Older history a b) {more : List α} (apart : a ∉ more) :
    Older (history ++ more) a b := by
  obtain ⟨early, late, rfl, since, accessed⟩ := older
  refine ⟨early, late ++ more, List.append_assoc _ _ _, ?_, List.mem_append_left _ accessed⟩
  rw [List.mem_append, not_or]
  exact ⟨since, apart⟩

theorem older_last (history : List α) (apart : a ≠ b) : Older (history ++ [b]) a b :=
  ⟨history, [b], rfl, by simpa using apart, by simp⟩

end

namespace Recency

variable {α : Type} {r : Recency} {name now : Nat → Option α} {history : List α}

/-- Frames come in the order of the last accesses to what they hold. -/
def Follows (r : Recency) (name : Nat → Option α) (history : List α) : Prop :=
  r.order.Pairwise fun i j => ∀ a b, name i = some a → name j = some b → Older history a b

/-- Frames may be taken out of the order, and what the others hold counts. -/
theorem Follows.of_sublist {rest : Recency} (follows : r.Follows name history)
    (fewer : rest.order.Sublist r.order) (same : ∀ i ∈ rest.order, now i = name i) :
    rest.Follows now history := by
  refine (List.Pairwise.sublist fewer follows).imp_of_mem fun {i j} first second older => ?_
  rw [same i first, same j second]
  exact older

/-- The frame touched comes last, and so does the access to what it now holds. -/
theorem Follows.touch (follows : r.Follows name history) (once : r.order.Nodup) {index : Nat}
    {id : α} (here : now index = some id)
    (others : ∀ i ∈ r.order, i ≠ index → now i = name i ∧ name i ≠ some id) :
    (r.touch index).Follows now (history ++ [id]) := by
  have rest : ∀ i ∈ r.order.erase index, now i = name i ∧ name i ≠ some id := fun i member =>
    others i (List.mem_of_mem_erase member) (once.mem_erase_iff.1 member).1
  unfold Follows Recency.touch
  rw [List.pairwise_append]
  refine ⟨?_, List.pairwise_singleton _ _, ?_⟩
  · refine (List.Pairwise.sublist List.erase_sublist follows).imp_of_mem ?_
    intro i j first second older a b holds held
    rw [(rest i first).1] at holds
    rw [(rest j second).1] at held
    refine (older a b holds held).append ?_
    rw [List.mem_singleton]
    rintro rfl
    exact (rest i first).2 holds
  · intro i first j last a b holds held
    rw [List.mem_singleton] at last
    subst last
    rw [here, Option.some.injEq] at held
    subst held
    refine older_last history ?_
    rintro rfl
    rw [(rest i first).1] at holds
    exact (rest i first).2 holds

/-- The victim comes before every other frame that may go. -/
theorem Follows.older_of_victim (follows : r.Follows name history) {mayGo : Nat → Bool}
    {victim other : Nat} {a b : α} (chosen : r.order.find? mayGo = some victim)
    (tracked : other ∈ r.order) (may : mayGo other = true) (apart : other ≠ victim)
    (first : name victim = some a) (second : name other = some b) : Older history a b := by
  obtain ⟨-, before, behind, split, refused⟩ := List.find?_eq_some_iff_append.1 chosen
  have later : other ∈ behind := by
    rw [split, List.mem_append, List.mem_cons] at tracked
    rcases tracked with early | same | late
    · have no := refused other early
      rw [may] at no
      cases no
    · exact absurd same apart
    · exact late
  unfold Follows at follows
  rw [split, List.pairwise_append] at follows
  exact (List.pairwise_cons.1 follows.2.1).1 other later a b first second

end Recency

namespace Pool

variable {p : Pool} {history : List PageId}

/-! ## Dated pools -/

/-- The id of the page that a frame holds. -/
def name (p : Pool) (index : Nat) : Option PageId := (p.frame? index).map Frame.id

/-- The books of the pool agree, and its recency order agrees with the history. -/
structure Dated (p : Pool) (history : List PageId) : Prop where
  consistent : p.Consistent
  follows : p.recency.Follows p.name history

theorem name_of_frame? {index : Nat} {frame : Frame} (occupied : p.frame? index = some frame) :
    p.name index = some frame.id := by rw [name, occupied, Option.map_some]

/-- Two frames do not hold the same page. -/
theorem Consistent.name_ne (ok : p.Consistent) {index other : Nat} {id : PageId}
    (here : p.directory.get? id = some index) (apart : other ≠ index) :
    p.name other ≠ some id := by
  intro holds
  obtain ⟨held, occupied, rfl⟩ := Option.map_eq_some_iff.1 holds
  rw [ok.listed other held occupied, Option.some.injEq] at here
  exact apart here

theorem dated_new (capacity : Nat) : (new capacity).Dated [] :=
  ⟨consistent_new capacity, List.Pairwise.nil⟩

theorem Dated.hit (dated : p.Dated history) {id : PageId} {frame : Frame}
    (there : p.resident? id = some frame) : (p.lookup id).2.Dated (history ++ [id]) := by
  obtain ⟨index, occupied, rfl⟩ := dated.consistent.resident?_eq_some.1 there
  have listed := dated.consistent.listed index frame occupied
  have touched : (p.lookup frame.id).2 = { p with recency := p.recency.touch index } := by
    rw [lookup, listed]
  refine ⟨dated.consistent.lookup frame.id, ?_⟩
  rw [touched]
  exact dated.follows.touch dated.consistent.trackedOnce (name_of_frame? occupied)
    fun other _ apart => ⟨rfl, dated.consistent.name_ne listed apart⟩

theorem name_setPage (p : Pool) (index : Nat) (page : Page) : (p.setPage index page).name = p.name := by
  funext other
  unfold name setPage
  cases occupied : p.frame? index with
  | none => rfl
  | some frame =>
      have view := frame?_refill occupied { frame with page } other
      rw [refill] at view
      simp only
      rw [view]
      split
      · rename_i here
        rw [here, occupied]
        rfl
      · rfl

theorem Consistent.changed (ok : p.Consistent) {index : Nat} {page : Page}
    (own : ∀ frame, p.frame? index = some frame → page.id = frame.page.id) :
    (p.setPage index page).Consistent := by
  cases occupied : p.frame? index with
  | none =>
      rw [Pool.setPage, occupied]
      exact ok
  | some frame =>
      have named := ok.named index frame occupied
      exact (ok.setPage occupied ((own frame occupied).trans named)).1

theorem Dated.changed (dated : p.Dated history) {index : Nat} {page : Page}
    (own : ∀ frame, p.frame? index = some frame → page.id = frame.page.id) :
    (p.setPage index page).Dated history := by
  have order : (p.setPage index page).recency = p.recency := by
    unfold setPage
    split <;> rfl
  refine ⟨dated.consistent.changed own, ?_⟩
  rw [name_setPage, order]
  exact dated.follows

/-- What a frame that was emptied leaves behind. -/
theorem Dated.forget (dated : p.Dated history) (index : Nat) {after : Pool}
    (order : after.recency = p.recency.forget index)
    (frames : ∀ other, other ≠ index → after.frame? other = p.frame? other) :
    after.recency.Follows after.name history := by
  rw [order]
  refine dated.follows.of_sublist List.erase_sublist fun other member => ?_
  have apart := (dated.consistent.trackedOnce.mem_erase_iff.1 member).1
  rw [name, frames other apart, name]

theorem Dated.removed (dated : p.Dated history) (id : PageId) : (p.remove id).Dated history := by
  refine ⟨(dated.consistent.remove id).1, ?_⟩
  cases there : p.directory.get? id with
  | none =>
      rw [remove, there]
      exact dated.follows
  | some index =>
      obtain ⟨frame, occupied, -⟩ := dated.consistent.located id index there
      refine dated.forget index (by rw [remove, there]) fun other apart => ?_
      rw [remove, there]
      exact (frame?_set p index other none (lt_capacity occupied)).trans (if_neg apart)

/-! ## Making room -/

/-- The three ways to look for a frame: one is free, a clean page leaves its frame, or all
frames hold dirty pages. -/
theorem allocate_cases (p : Pool) :
    (∃ index rest, p.free = index :: rest ∧ p.allocate = .ok (index, { p with free := rest })) ∨
      p.free = [] ∧
        ((∃ index, p.recency.order.find? p.mayGo = some index ∧ p.allocate =
            .ok (index, ({ p with recency := p.recency.forget index } : Pool).vacate index)) ∨
          p.recency.order.find? p.mayGo = none ∧ p.allocate = .error .poolFull) := by
  unfold allocate
  cases p.free with
  | cons index rest => exact Or.inl ⟨index, rest, rfl, rfl⟩
  | nil =>
      refine Or.inr ⟨rfl, ?_⟩
      unfold Recency.victim?
      cases p.recency.order.find? p.mayGo with
      | some index => exact Or.inl ⟨index, rfl, rfl⟩
      | none => exact Or.inr ⟨rfl, rfl⟩

theorem exists_of_mayGo {index : Nat} (may : p.mayGo index = true) :
    ∃ frame, p.frame? index = some frame ∧ frame.page.isDirty = false := by
  unfold mayGo at may
  cases occupied : p.frame? index with
  | none =>
      rw [occupied] at may
      cases may
  | some frame =>
      rw [occupied] at may
      exact ⟨frame, rfl, by simpa using may⟩

theorem mayGo_of_clean {index : Nat} {frame : Frame} (occupied : p.frame? index = some frame)
    (clean : frame.page.isDirty = false) : p.mayGo index = true := by
  simp [mayGo, occupied, clean]

/-- The frame handed out is empty, and of the others at most their order counts less. -/
theorem Dated.allocate (dated : p.Dated history) {index : Nat} {room : Pool}
    (found : p.allocate = .ok (index, room)) : room.recency.Follows room.name history := by
  rcases p.allocate_cases with
    ⟨_, _, -, same⟩ | ⟨-, ⟨victim, chosen, same⟩ | ⟨-, same⟩⟩ <;> rw [same] at found <;> cases found
  · exact dated.follows
  · obtain ⟨frame, occupied, -⟩ := exists_of_mayGo (List.find?_some chosen)
    have inside : ({ p with recency := p.recency.forget index } : Pool).frame? index = some frame :=
      occupied
    refine dated.forget index (by rw [vacate, inside]) fun other apart => ?_
    rw [vacate, inside]
    exact (frame?_set p index other none (lt_capacity occupied)).trans (if_neg apart)

/-- A page placed into a frame comes last in the order and in the history. -/
theorem follows_place {frame : Frame} {index : Nat} (follows : p.recency.Follows p.name history)
    (once : p.recency.order.Nodup) (inside : index < p.capacity)
    (absent : ∀ other, other ≠ index → p.name other ≠ some frame.id) :
    (p.place index frame).recency.Follows (p.place index frame).name (history ++ [frame.id]) := by
  have view := frame?_place frame inside
  refine follows.touch once (by rw [name, view, if_pos rfl, Option.map_some]) ?_
  intro other _ apart
  refine ⟨?_, absent other apart⟩
  rw [name, view, if_neg apart, name]

theorem Dated.installed (dated : p.Dated history) {frame : Frame} {after : Pool}
    (named : frame.page.id = frame.id) (done : p.install frame = .ok after) :
    after.Dated (history ++ [frame.id]) := by
  refine ⟨(dated.consistent.install named done).1, ?_⟩
  unfold install at done
  split at done
  · rename_i index there
    cases done
    obtain ⟨old, occupied, -⟩ := dated.consistent.located frame.id index there
    exact follows_place dated.follows dated.consistent.trackedOnce (lt_capacity occupied)
      fun other apart => dated.consistent.name_ne there apart
  · rename_i absent
    split at done
    · rename_i index room allocated
      cases done
      obtain ⟨tidy, inside, -, -, sheds⟩ := dated.consistent.allocate allocated
      refine follows_place (dated.allocate allocated) tidy.trackedOnce inside fun other _ holds => ?_
      -- The page was not resident, and making room has brought none in.
      obtain ⟨held, occupied, same⟩ := Option.map_eq_some_iff.1 holds
      have resident := tidy.resident?_eq_some.2 ⟨other, occupied, same⟩
      rcases sheds frame.id with kept | ⟨gone, -⟩
      · rw [kept, dated.consistent.resident?_eq_none.2 absent] at resident
        cases resident
      · rw [gone] at resident
        cases resident
    · cases done

theorem Dated.stamp (dated : p.Dated history) :
    Dated { p with nextStamp := p.nextStamp + 1 } history :=
  ⟨dated.consistent.stamp, dated.follows⟩

theorem Dated.loaded (dated : p.Dated history) {page : Page} {frame : Frame} {after : Pool}
    (done : p.bring page = .ok (frame, after)) : after.Dated (history ++ [page.id]) := by
  unfold bring at done
  simp only at done
  split at done
  · rename_i installed
    cases done
    exact dated.stamp.installed rfl installed
  · cases done

/-! ## Events -/

/-- What can happen to a pool, with the accesses to pages that it makes: a page is found
resident, is loaded or is installed; a resident page changes, which is no access; a page
is dropped. -/
inductive Event : Pool → List PageId → Pool → Prop where
  | hit {p : Pool} {id : PageId} {frame : Frame} (there : p.resident? id = some frame) :
      Event p [id] (p.lookup id).2
  | loaded {p after : Pool} {page : Page} {frame : Frame}
      (done : p.bring page = .ok (frame, after)) : Event p [page.id] after
  | installed {p after : Pool} {frame : Frame} (named : frame.page.id = frame.id)
      (done : p.install frame = .ok after) : Event p [frame.id] after
  | changed {p : Pool} {index : Nat} {page : Page}
      (own : ∀ frame, p.frame? index = some frame → page.id = frame.page.id) :
      Event p [] (p.setPage index page)
  | removed (p : Pool) (id : PageId) : Event p [] (p.remove id)

/-- A run of events with the history of its accesses. -/
inductive Trace : Pool → List PageId → Pool → Prop where
  | refl (p : Pool) : Trace p [] p
  | tail {p mid after : Pool} {history latest : List PageId} (before : Trace p history mid)
      (event : Event mid latest after) : Trace p (history ++ latest) after

/-- **One event** keeps the order and the history in step. -/
theorem Dated.event (dated : p.Dated history) {after : Pool} {latest : List PageId}
    (event : Event p latest after) : after.Dated (history ++ latest) := by
  cases event with
  | hit there => exact dated.hit there
  | loaded done => exact dated.loaded done
  | installed named done => exact dated.installed named done
  | changed own => exact (List.append_nil history).symm ▸ dated.changed own
  | removed id => exact (List.append_nil history).symm ▸ dated.removed id

theorem Trace.dated {after : Pool} {more : List PageId} (trace : Trace p more after)
    (dated : p.Dated history) : after.Dated (history ++ more) := by
  induction trace with
  | refl => exact (List.append_nil history).symm ▸ dated
  | tail _ event ih =>
      rw [← List.append_assoc]
      exact ih.event event

theorem dated_of_trace {capacity : Nat} (trace : Trace (new capacity) history p) :
    p.Dated history := trace.dated (dated_new capacity)

theorem Event.consistent {after : Pool} {latest : List PageId} (event : Event p latest after)
    (ok : p.Consistent) : after.Consistent := by
  cases event with
  | hit _ => exact ok.lookup _
  | loaded done => exact (ok.bring done).2.2.1
  | installed named done => exact (ok.install named done).1
  | changed own => exact ok.changed own
  | removed id => exact (ok.remove id).1

theorem Trace.consistent {after : Pool} (trace : Trace p history after) (ok : p.Consistent) :
    after.Consistent := by
  induction trace with
  | refl => exact ok
  | tail _ event ih => exact event.consistent ih

theorem Trace.single {after : Pool} {latest : List PageId} (event : Event p latest after) :
    Trace p latest after := .tail (.refl p) event

theorem Trace.trans {mid after : Pool} {more : List PageId} (first : Trace p history mid)
    (second : Trace mid more after) : Trace p (history ++ more) after := by
  induction second with
  | refl => exact (List.append_nil history).symm ▸ first
  | tail _ event ih =>
      rw [← List.append_assoc]
      exact .tail ih event

/-! ## Who leaves -/

/-- The page is clean, and the last access to it is the oldest among the clean pages. -/
structure Oldest (p : Pool) (history : List PageId) (victim : PageId) : Prop where
  clean : ∃ frame, p.resident? victim = some frame ∧ frame.page.isDirty = false
  oldest : ∀ id frame, id ≠ victim → p.resident? id = some frame → frame.page.isDirty = false →
    Older history victim id

/-- Every frame holds a page with unwritten changes. -/
structure Crowded (p : Pool) : Prop where
  full : p.residents.length = p.capacity
  dirty : ∀ id frame, p.resident? id = some frame → frame.page.isDirty = true

theorem Dated.oldest (dated : p.Dated history) {index : Nat} {frame : Frame}
    (chosen : p.recency.order.find? p.mayGo = some index) (occupied : p.frame? index = some frame)
    (clean : frame.page.isDirty = false) : p.Oldest history frame.id := by
  refine ⟨⟨frame, dated.consistent.resident?_eq_some.2 ⟨index, occupied, rfl⟩, clean⟩, ?_⟩
  intro id held apart there unmarked
  obtain ⟨other, found, rfl⟩ := dated.consistent.resident?_eq_some.1 there
  refine dated.follows.older_of_victim chosen ((dated.consistent.tracked other).2 ⟨held, found⟩)
    (mayGo_of_clean found unmarked) ?_ (name_of_frame? occupied) (name_of_frame? found)
  rintro rfl
  rw [occupied] at found
  cases found
  exact apart rfl

/-- Where no frame may go, all are dirty. -/
theorem Consistent.dirty_of_find?_eq_none (ok : p.Consistent)
    (none : p.recency.order.find? p.mayGo = none) {id : PageId} {frame : Frame}
    (there : p.resident? id = some frame) : frame.page.isDirty = true := by
  obtain ⟨index, occupied, -⟩ := ok.resident?_eq_some.1 there
  by_contra clean
  have may := mayGo_of_clean occupied (by simpa using clean)
  exact List.find?_eq_none.1 none index ((ok.tracked index).2 ⟨frame, occupied⟩) may

theorem Consistent.free_eq_nil_iff (ok : p.Consistent) :
    p.free = [] ↔ p.residents.length = p.capacity := by
  have total := ok.length_free_add_order
  rw [← ok.length_residents] at total
  rw [← List.length_eq_zero_iff]
  omega

/-- What bringing a page in does to the resident pages: `leaves` is the page that makes
room for it, if one has to. -/
def Brought (p after : Pool) (frame : Frame) (leaves : Option PageId) : Prop :=
  ∀ id, after.resident? id =
    if id = frame.id then some frame else if some id = leaves then none else p.resident? id

theorem Dated.install_cases (dated : p.Dated history) (frame : Frame)
    (absent : p.resident? frame.id = none) (named : frame.page.id = frame.id) :
    (p.residents.length < p.capacity ∧ ∃ after, p.install frame = .ok after ∧
        p.Brought after frame none) ∨
      (p.residents.length = p.capacity ∧ ∃ victim after, p.Oldest history victim ∧
        p.install frame = .ok after ∧ p.Brought after frame (some victim)) ∨
      p.Crowded ∧ p.install frame = .error .poolFull := by
  have ok := dated.consistent
  have unlisted := ok.resident?_eq_none.1 absent
  have outcome : p.install frame = p.allocate.map fun slot => slot.2.place slot.1 frame := by
    unfold install
    cases room : p.allocate with
    | ok slot => simp [unlisted, Except.map]
    | error fault => simp [unlisted, Except.map]
  have placed : ∀ {index : Nat} {room : Pool} {leaves : Option PageId},
      p.allocate = .ok (index, room) →
      (∀ id, room.resident? id = if some id = leaves then none else p.resident? id) →
      p.Brought (room.place index frame) frame leaves := by
    intro index room leaves allocated view id
    obtain ⟨tidy, inside, empty, -, -⟩ := ok.allocate allocated
    have unlistedNow : room.directory.get? frame.id = none := by
      rw [← tidy.resident?_eq_none, view, absent, ite_self]
    rw [(tidy.place inside empty unlistedNow named).2, view]
  rcases p.allocate_cases with
    ⟨index, rest, free, allocated⟩ | ⟨free, ⟨index, chosen, allocated⟩ | ⟨none, allocated⟩⟩
  · have few : p.residents.length < p.capacity := by
      have total := ok.length_free_add_order
      rw [← ok.length_residents, free, List.length_cons] at total
      omega
    refine Or.inl ⟨few, _, by rw [outcome, allocated, Except.map], placed allocated fun id => ?_⟩
    simp only [reduceCtorEq, if_false]
    rfl
  · obtain ⟨old, occupied, clean⟩ := exists_of_mayGo (List.find?_some chosen)
    obtain ⟨-, -, -, view⟩ := ok.evict occupied rfl
    refine Or.inr (Or.inl ⟨ok.free_eq_nil_iff.1 free, old.id, _,
      dated.oldest chosen occupied clean, by rw [outcome, allocated, Except.map], placed allocated ?_⟩)
    intro id
    rw [view]
    simp only [Option.some.injEq]
  · refine Or.inr (Or.inr ⟨⟨ok.free_eq_nil_iff.1 free, fun id held there => ?_⟩, ?_⟩)
    · exact ok.dirty_of_find?_eq_none none there
    · rw [outcome, allocated, Except.map]

/-- **Bringing a page in.**  A free frame takes it; or else the page takes the place of the
clean page that was accessed longest ago; or else all frames are dirty and nothing
happens. -/
theorem Dated.bring_cases (dated : p.Dated history) {page : Page}
    (absent : p.resident? page.id = none) :
    (p.residents.length < p.capacity ∧ ∃ after,
        p.bring page = .ok (⟨page.id, page, p.nextStamp⟩, after) ∧
          p.Brought after ⟨page.id, page, p.nextStamp⟩ none) ∨
      (p.residents.length = p.capacity ∧ ∃ victim after, p.Oldest history victim ∧
        p.bring page = .ok (⟨page.id, page, p.nextStamp⟩, after) ∧
          p.Brought after ⟨page.id, page, p.nextStamp⟩ (some victim)) ∨
      p.Crowded ∧ p.bring page = .error .poolFull := by
  have installs : ∀ {r : Except Fault Pool},
      ({ p with nextStamp := p.nextStamp + 1 } : Pool).install ⟨page.id, page, p.nextStamp⟩ = r →
      p.bring page = r.map fun after => (⟨page.id, page, p.nextStamp⟩, after) := by
    intro r outcome
    simp only [bring, outcome]
    cases r <;> rfl
  rcases dated.stamp.install_cases ⟨page.id, page, p.nextStamp⟩ absent rfl with
    ⟨room, after, done, brought⟩ | ⟨full, victim, after, oldest, done, brought⟩ | ⟨crowded, failed⟩
  · exact Or.inl ⟨room, after, installs done, brought⟩
  · exact Or.inr (Or.inl ⟨full, victim, after, ⟨oldest.clean, oldest.oldest⟩, installs done, brought⟩)
  · exact Or.inr (Or.inr ⟨⟨crowded.full, crowded.dirty⟩, installs failed⟩)

/-! ## Serving a request -/

/-- How the pool serves a request for a page.  `got` says that the requester gets it,
`refused` that it is told that there is no room. -/
structure Serves (p : Pool) (history : List PageId) (id : PageId) (after : Pool)
    (got refused : Prop) : Prop where
  /-- The page is resident or a frame is free: no page leaves. -/
  kept : p.resident? id ≠ none ∨ p.residents.length < p.capacity →
    got ∧ ∀ other, other ≠ id → after.resident? other = p.resident? other
  /-- All frames are taken and a page is clean: the oldest of these leaves, and no other. -/
  exchanged : p.resident? id = none → p.residents.length = p.capacity → ¬ p.Crowded →
    got ∧ ∃ victim, p.Oldest history victim ∧ ∀ other, other ≠ id →
      after.resident? other = if other = victim then none else p.resident? other
  /-- All frames hold dirty pages: nothing changes. -/
  crowded : p.resident? id = none → p.Crowded → refused ∧ after = p
  /-- In no case does a dirty page leave. -/
  dirty : ∀ other frame, p.resident? other = some frame → frame.page.isDirty = true →
    after.resident? other ≠ none

theorem Oldest.not_crowded {victim : PageId} (oldest : p.Oldest history victim) : ¬ p.Crowded := by
  intro crowded
  obtain ⟨frame, there, clean⟩ := oldest.clean
  rw [crowded.dirty victim frame there] at clean
  cases clean

theorem serves_lookup {id : PageId} {got refused : Prop} (resident : p.resident? id ≠ none)
    (gets : got) : p.Serves history id (p.lookup id).2 got refused where
  kept := fun _ => ⟨gets, fun other _ => resident?_lookup p id other⟩
  exchanged := fun absent => absurd absent resident
  crowded := fun absent => absurd absent resident
  dirty := fun other frame there _ => by simp [there]

theorem Brought.serves {after : Pool} {frame : Frame} {got refused : Prop}
    (brought : p.Brought after frame none) (room : p.residents.length < p.capacity) (gets : got) :
    p.Serves history frame.id after got refused where
  kept := by
    refine fun _ => ⟨gets, fun other apart => ?_⟩
    rw [brought, if_neg apart, if_neg (by simp)]
  exchanged := fun _ full => absurd full (Nat.ne_of_lt room)
  crowded := fun _ crowded => absurd crowded.full (Nat.ne_of_lt room)
  dirty := by
    intro other held there _ gone
    rw [brought] at gone
    split at gone
    · cases gone
    · rw [if_neg (by simp), there] at gone
      cases gone

theorem Brought.serves_oldest {after : Pool} {frame : Frame} {victim : PageId}
    {got refused : Prop} (brought : p.Brought after frame (some victim))
    (absent : p.resident? frame.id = none) (full : p.residents.length = p.capacity)
    (oldest : p.Oldest history victim) (gets : got) :
    p.Serves history frame.id after got refused where
  kept := by
    rintro (resident | room)
    · exact absurd absent resident
    · exact absurd full (Nat.ne_of_lt room)
  exchanged := by
    refine fun _ _ _ => ⟨gets, victim, oldest, fun other apart => ?_⟩
    rw [brought, if_neg apart]
    simp only [Option.some.injEq]
  crowded := fun _ crowded => absurd crowded oldest.not_crowded
  dirty := by
    intro other held there changed gone
    rw [brought] at gone
    split at gone
    · cases gone
    · split at gone
      · rename_i left
        cases left
        obtain ⟨found, listed, clean⟩ := oldest.clean
        rw [there, Option.some.injEq] at listed
        rw [← listed, changed] at clean
        cases clean
      · rw [there] at gone
        cases gone

theorem Crowded.serves {id : PageId} {got refused : Prop} (crowded : p.Crowded)
    (absent : p.resident? id = none) (refuses : refused) :
    p.Serves history id p got refused where
  kept := by
    rintro (resident | room)
    · exact absurd absent resident
    · exact absurd crowded.full (Nat.ne_of_lt room)
  exchanged := fun _ _ some => absurd crowded some
  crowded := fun _ _ => ⟨refuses, rfl⟩
  dirty := fun other frame there _ => by simp [there]

/-- The requester may change the page that it got. -/
theorem Serves.changed {id : PageId} {mid after : Pool} {got refused gotNow refusedNow : Prop}
    (serves : p.Serves history id mid got refused) (gets : got → gotNow) (never : ¬ refused)
    (others : ∀ other, other ≠ id → after.resident? other = mid.resident? other)
    (here : after.resident? id ≠ none) : p.Serves history id after gotNow refusedNow where
  kept := by
    intro room
    obtain ⟨found, same⟩ := serves.kept room
    exact ⟨gets found, fun other apart => (others other apart).trans (same other apart)⟩
  exchanged := by
    intro absent full some
    obtain ⟨found, victim, oldest, same⟩ := serves.exchanged absent full some
    exact ⟨gets found, victim, oldest, fun other apart =>
      (others other apart).trans (same other apart)⟩
  crowded := fun absent crowded => absurd (serves.crowded absent crowded).1 never
  dirty := by
    intro other frame there changed
    by_cases own : other = id
    · rw [own]
      exact here
    · rw [others other own]
      exact serves.dirty other frame there changed

theorem Serves.mono {id : PageId} {after : Pool} {got refused gotNow refusedNow : Prop}
    (serves : p.Serves history id after got refused) (gets : got → gotNow)
    (refuses : refused → refusedNow) : p.Serves history id after gotNow refusedNow where
  kept := fun room => ⟨gets (serves.kept room).1, (serves.kept room).2⟩
  exchanged := fun absent full some =>
    ⟨gets (serves.exchanged absent full some).1, (serves.exchanged absent full some).2⟩
  crowded := fun absent crowded =>
    ⟨refuses (serves.crowded absent crowded).1, (serves.crowded absent crowded).2⟩
  dirty := serves.dirty

end Pool

end RowStore
