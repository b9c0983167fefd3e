/-
# RowStore.Proofs.Pool.Consistency -- frames, directory, free list and recency agree

A `Consistent` pool keeps four books on the same frames: the directory names exactly
the occupied ones, each under the id of its page, the free list has exactly the empty
ones and the recency order exactly the occupied ones, all without repetition.  In the
middle of an installation one empty frame is taken and not yet filled; `Tidy` allows
for one such reserved frame.

What the pool is for the rest of the store is the map `resident?` from ids to frames.
Every operation keeps the pool consistent and has one equation for this map.  Only an
installation may take away a page that it was not asked about, and that page is clean
(`Consistent.install`).
-/
import Mathlib.Data.List.Nodup
import Mathlib.Data.List.Perm.Subperm
import RowStore.Pool

namespace RowStore

set_option autoImplicit false

namespace Pool

/-- The frame in which a page is resident. -/
def resident? (p : Pool) (id : PageId) : Option Frame :=
  match p.directory.get? id with
  | some index => p.frame? index
  | none => none

/-- The books agree, up to one empty frame that is reserved. -/
structure Tidy (p : Pool) (reserved : Option Nat) : Prop where
  located : ∀ id index, p.directory.get? id = some index →
    ∃ frame, p.frame? index = some frame ∧ frame.id = id
  listed : ∀ index frame, p.frame? index = some frame → p.directory.get? frame.id = some index
  named : ∀ index frame, p.frame? index = some frame → frame.page.id = frame.id
  free : ∀ index, index ∈ p.free ↔
    index < p.capacity ∧ p.frame? index = none ∧ reserved ≠ some index
  freeOnce : p.free.Nodup
  tracked : ∀ index, index ∈ p.recency.order ↔ ∃ frame, p.frame? index = some frame
  trackedOnce : p.recency.order.Nodup

abbrev Consistent (p : Pool) : Prop := p.Tidy none

variable {p : Pool}

/-! ## Frames -/

theorem frame?_set (p : Pool) (index other : Nat) (content : Option Frame)
    (inside : index < p.capacity) :
    (p.frames.setIfInBounds index content)[other]?.join =
      if other = index then content else p.frame? other := by
  unfold capacity at inside
  unfold frame?
  rw [Array.getElem?_setIfInBounds]
  by_cases same : other = index
  · subst same
    simp [inside]
  · rw [if_neg (Ne.symm same), if_neg same]

theorem lt_capacity {index : Nat} {frame : Frame} (found : p.frame? index = some frame) :
    index < p.capacity := by
  unfold frame? at found
  rcases Nat.lt_or_ge index p.frames.size with inside | past
  · exact inside
  · rw [Array.getElem?_eq_none past] at found
    cases found

theorem mem_occupied {index : Nat} {frame : Frame} :
    (index, frame) ∈ p.occupied ↔ p.frame? index = some frame := by
  unfold occupied
  simp only [List.mem_filterMap, List.mem_range, Option.map_eq_some_iff, Prod.mk.injEq]
  constructor
  · rintro ⟨i, -, f, found, rfl, rfl⟩
    exact found
  · exact fun found => ⟨index, lt_capacity found, frame, found, rfl, rfl⟩

theorem mem_dirtiedBy {txn : TxnId} {index : Nat} {frame : Frame} :
    (index, frame) ∈ p.dirtiedBy txn ↔
      p.frame? index = some frame ∧ frame.page.mark = some txn := by
  simp [dirtiedBy, mem_occupied]

/-! ## The resident pages -/

section

variable {reserved : Option Nat} (tidy : p.Tidy reserved)

include tidy

theorem Tidy.resident?_eq_some {id : PageId} {frame : Frame} :
    p.resident? id = some frame ↔ ∃ index, p.frame? index = some frame ∧ frame.id = id := by
  unfold resident?
  constructor
  · intro found
    split at found
    · rename_i index there
      obtain ⟨held, occupied, own⟩ := tidy.located id index there
      rw [found] at occupied
      cases occupied
      exact ⟨index, found, own⟩
    · cases found
  · rintro ⟨index, found, rfl⟩
    rw [tidy.listed index frame found]
    exact found

theorem Tidy.resident?_id {id : PageId} {frame : Frame} (found : p.resident? id = some frame) :
    frame.id = id ∧ frame.page.id = id := by
  obtain ⟨index, occupied, own⟩ := tidy.resident?_eq_some.1 found
  exact ⟨own, by rw [tidy.named index frame occupied, own]⟩

theorem Tidy.resident?_eq_none {id : PageId} :
    p.resident? id = none ↔ p.directory.get? id = none := by
  unfold resident?
  constructor
  · intro absent
    split at absent
    · rename_i index there
      obtain ⟨frame, occupied, -⟩ := tidy.located id index there
      rw [absent] at occupied
      cases occupied
    · assumption
  · intro absent
    rw [absent]

/-- The directory entry of a resident page is its only frame. -/
theorem Tidy.index_unique {index other : Nat} {frame held : Frame}
    (first : p.frame? index = some frame) (second : p.frame? other = some held)
    (same : frame.id = held.id) : index = other := by
  have here := tidy.listed index frame first
  have there := tidy.listed other held second
  rw [same, there, Option.some.injEq] at here
  exact here.symm

/-- Where a page is resident depends on the frames that hold it and on nothing else. -/
theorem Tidy.resident?_congr {after : Pool} {reservedNow : Option Nat}
    (still : after.Tidy reservedNow) {id : PageId}
    (same : ∀ index held, held.id = id →
      (after.frame? index = some held ↔ p.frame? index = some held)) :
    after.resident? id = p.resident? id := by
  refine Option.ext fun frame => ?_
  rw [still.resident?_eq_some, tidy.resident?_eq_some]
  constructor
  · rintro ⟨index, found, own⟩
    exact ⟨index, (same index frame own).1 found, own⟩
  · rintro ⟨index, found, own⟩
    exact ⟨index, (same index frame own).2 found, own⟩

end

theorem consistent_new (capacity : Nat) : (new capacity).Consistent := by
  have empty : ∀ index, (new capacity).frame? index = none := by
    intro index
    by_cases inside : index < capacity <;> simp [new, frame?, inside]
  refine ⟨fun id index found => ?_, fun index frame found => ?_, fun index frame found => ?_,
    fun index => ?_, List.nodup_range, fun index => ?_, List.nodup_nil⟩
  · cases found
  · rw [empty] at found
    cases found
  · rw [empty] at found
    cases found
  · rw [empty]
    simp [new, Pool.capacity]
  · rw [empty]
    simp [new, Recency.empty]

@[simp] theorem resident?_new (capacity : Nat) (id : PageId) :
    (new capacity).resident? id = none := rfl

@[simp] theorem residents_new (capacity : Nat) : (new capacity).residents = [] := List.mergeSort_nil

@[simp] theorem capacity_new (capacity : Nat) : (new capacity).capacity = capacity :=
  Array.size_replicate

/-! ## Uses -/

theorem mem_touch {r : Recency} {frame : Nat} (once : r.order.Nodup) (other : Nat) :
    other ∈ (r.touch frame).order ↔ other = frame ∨ other ∈ r.order := by
  unfold Recency.touch
  rw [List.mem_append, List.mem_singleton, once.mem_erase_iff]
  by_cases same : other = frame <;> simp [same]

theorem nodup_touch {r : Recency} {frame : Nat} (once : r.order.Nodup) :
    (r.touch frame).order.Nodup := by
  unfold Recency.touch
  rw [List.nodup_append]
  refine ⟨once.erase frame, by simp, ?_⟩
  rintro a member b last rfl
  rw [List.mem_singleton] at last
  exact absurd last (once.mem_erase_iff.1 member).1

/-- Noting a use changes nothing but the order of the uses. -/
theorem Consistent.touch (ok : p.Consistent) {index : Nat} {frame : Frame}
    (occupied : p.frame? index = some frame) :
    Consistent { p with recency := p.recency.touch index } := by
  refine ⟨ok.located, ok.listed, ok.named, ok.free, ok.freeOnce, fun other => ?_,
    nodup_touch ok.trackedOnce⟩
  rw [mem_touch ok.trackedOnce, ok.tracked]
  constructor
  · rintro (rfl | there)
    · exact ⟨frame, occupied⟩
    · exact there
  · exact Or.inr

theorem lookup_fst (p : Pool) (id : PageId) : (p.lookup id).1 = p.resident? id := by
  unfold lookup resident?
  cases p.directory.get? id <;> rfl

@[simp] theorem resident?_lookup (p : Pool) (id other : PageId) :
    (p.lookup id).2.resident? other = p.resident? other := by
  unfold lookup
  split <;> rfl

theorem Consistent.lookup (ok : p.Consistent) (id : PageId) : (p.lookup id).2.Consistent := by
  unfold Pool.lookup
  cases found : p.directory.get? id with
  | none => exact ok
  | some index =>
      obtain ⟨frame, occupied, -⟩ := ok.located id index found
      exact ok.touch occupied

/-! ## Changing a resident page -/

/-- Put a version of a page into the frame that holds it. -/
def refill (p : Pool) (index : Nat) (frame : Frame) : Pool :=
  { p with frames := p.frames.setIfInBounds index (some frame) }

theorem frame?_refill {index : Nat} {old : Frame} (occupied : p.frame? index = some old)
    (frame : Frame) (other : Nat) :
    (p.refill index frame).frame? other = if other = index then some frame else p.frame? other :=
  frame?_set p index other (some frame) (lt_capacity occupied)

theorem Consistent.refill (ok : p.Consistent) {index : Nat} {old frame : Frame}
    (occupied : p.frame? index = some old) (same : frame.id = old.id)
    (named : frame.page.id = frame.id) : (p.refill index frame).Consistent := by
  have view := frame?_refill occupied frame
  refine ⟨fun id other found => ?_, fun other held found => ?_, fun other held found => ?_,
    fun other => ?_, ok.freeOnce, fun other => ?_, ok.trackedOnce⟩
  · obtain ⟨held, there, own⟩ := ok.located id other found
    rw [view]
    split
    · rename_i here
      subst here
      rw [occupied] at there
      cases there
      exact ⟨frame, rfl, same.trans own⟩
    · exact ⟨held, there, own⟩
  · rw [view] at found
    split at found
    · rename_i here
      cases found
      rw [same, here]
      exact ok.listed index old occupied
    · exact ok.listed other held found
  · rw [view] at found
    split at found
    · cases found
      exact named
    · exact ok.named other held found
  · show other ∈ p.free ↔ _
    rw [ok.free, view]
    simp only [Pool.refill, capacity, Array.size_setIfInBounds]
    by_cases here : other = index
    · simp [here, occupied]
    · simp [here]
  · show other ∈ p.recency.order ↔ _
    rw [ok.tracked, view]
    by_cases here : other = index
    · simp [here, occupied]
    · simp [here]

theorem Consistent.resident?_refill (ok : p.Consistent) {index : Nat} {old frame : Frame}
    (occupied : p.frame? index = some old) (same : frame.id = old.id)
    (named : frame.page.id = frame.id) (id : PageId) :
    (p.refill index frame).resident? id = if id = frame.id then some frame else p.resident? id := by
  have after := ok.refill occupied same named
  have view := frame?_refill occupied frame
  by_cases here : id = frame.id
  · rw [if_pos here]
    exact after.resident?_eq_some.2 ⟨index, by rw [view, if_pos rfl], here.symm⟩
  · rw [if_neg here]
    refine ok.resident?_congr after fun other held own => ?_
    rw [view]
    by_cases this : other = index
    · rw [if_pos this, this, occupied]
      constructor
      · rintro ⟨⟩
        exact absurd own.symm here
      · rintro ⟨⟩
        exact absurd (own.symm.trans same.symm) here
    · rw [if_neg this]

theorem Consistent.setPage (ok : p.Consistent) {index : Nat} {old : Frame} {page : Page}
    (occupied : p.frame? index = some old) (same : page.id = old.id) :
    (p.setPage index page).Consistent ∧ ∀ id, (p.setPage index page).resident? id =
      if id = old.id then some { old with page } else p.resident? id := by
  unfold Pool.setPage
  simp only [occupied]
  exact ⟨ok.refill occupied rfl same, ok.resident?_refill occupied rfl same⟩

/-! ## Bringing a page in -/

/-- Emptying a frame drops its page and no other. -/
theorem Consistent.emptied (ok : p.Consistent) {index : Nat} {frame : Frame}
    (occupied : p.frame? index = some frame) (after : Pool)
    (frames : after.frames = p.frames.setIfInBounds index none)
    (directory : after.directory = p.directory.erase frame.id) :
    (∀ other, after.frame? other = if other = index then none else p.frame? other) ∧
      (∀ id other, after.directory.get? id = some other →
        ∃ held, after.frame? other = some held ∧ held.id = id) ∧
      (∀ other held, after.frame? other = some held →
        after.directory.get? held.id = some other) ∧
      ∀ id, after.resident? id = if id = frame.id then none else p.resident? id := by
  have view : ∀ other, after.frame? other = if other = index then none else p.frame? other := by
    intro other
    rw [frame?, frames]
    exact frame?_set p index other none (lt_capacity occupied)
  have located : ∀ id other, after.directory.get? id = some other →
      ∃ held, after.frame? other = some held ∧ held.id = id := by
    intro id other found
    rw [directory, FinMap.get?_erase] at found
    split at found
    · cases found
    · rename_i apart
      obtain ⟨held, there, own⟩ := ok.located id other found
      rw [view]
      split
      · rename_i here
        subst here
        rw [occupied] at there
        cases there
        exact absurd own.symm apart
      · exact ⟨held, there, own⟩
  refine ⟨view, located, fun other held found => ?_, fun id => ?_⟩
  · rw [view] at found
    split at found
    · cases found
    · rename_i elsewhere
      rw [directory, FinMap.get?_erase, if_neg, ok.listed other held found]
      exact fun same => elsewhere (ok.index_unique found occupied same)
  · unfold resident?
    rw [directory, FinMap.get?_erase]
    by_cases own : id = frame.id
    · rw [if_pos own, if_pos own]
    · rw [if_neg own, if_neg own]
      cases there : p.directory.get? id with
      | none => rfl
      | some other =>
          obtain ⟨held, found, named⟩ := ok.located id other there
          simp only [view]
          rw [if_neg]
          rintro rfl
          rw [occupied] at found
          cases found
          exact own named.symm

/-- Taking a page out of its frame reserves the frame. -/
theorem Consistent.evict (ok : p.Consistent) {index : Nat} {frame : Frame}
    (occupied : p.frame? index = some frame) {room : Pool}
    (made : room = ({ p with recency := p.recency.forget index } : Pool).vacate index) :
    room.Tidy (some index) ∧ room.frame? index = none ∧ room.capacity = p.capacity ∧
      ∀ id, room.resident? id = if id = frame.id then none else p.resident? id := by
  have frames : room.frames = p.frames.setIfInBounds index none := by
    have there : ({ p with recency := p.recency.forget index } : Pool).frame? index = some frame :=
      occupied
    simp [made, vacate, there]
  have books : room.directory = p.directory.erase frame.id ∧ room.free = p.free ∧
      room.recency = p.recency.forget index := by
    have there : ({ p with recency := p.recency.forget index } : Pool).frame? index = some frame :=
      occupied
    simp [made, vacate, there]
  obtain ⟨directory, free, recency⟩ := books
  obtain ⟨view, located, listed, residents⟩ := ok.emptied occupied room frames directory
  have size : room.capacity = p.capacity := by simp [capacity, frames]
  refine ⟨⟨located, listed, fun other kept there => ?_, fun other => ?_, free ▸ ok.freeOnce,
    fun other => ?_, recency ▸ ok.trackedOnce.erase index⟩, by rw [view, if_pos rfl], size, residents⟩
  · rw [view] at there
    split at there
    · cases there
    · exact ok.named other kept there
  · rw [free, ok.free, size, view]
    by_cases here : other = index
    · simp [here, occupied]
    · simp [here, Ne.symm here]
  · rw [recency, Recency.forget, ok.trackedOnce.mem_erase_iff, ok.tracked, view]
    by_cases here : other = index <;> simp [here]

/-- What making room may do to the resident pages: it drops clean ones. -/
def Sheds (p after : Pool) : Prop :=
  ∀ id, after.resident? id = p.resident? id ∨
    after.resident? id = none ∧ ∃ frame, p.resident? id = some frame ∧ frame.page.isDirty = false

theorem Consistent.allocate (ok : p.Consistent) {index : Nat} {room : Pool}
    (found : p.allocate = .ok (index, room)) :
    room.Tidy (some index) ∧ index < room.capacity ∧ room.frame? index = none ∧
      room.capacity = p.capacity ∧ p.Sheds room := by
  unfold Pool.allocate at found
  split at found
  · rename_i index rest free
    cases found
    have first := (ok.free index).1 (by rw [free]; exact List.mem_cons_self)
    have once := ok.freeOnce
    rw [free, List.nodup_cons] at once
    refine ⟨⟨ok.located, ok.listed, ok.named, fun other => ?_, once.2, ok.tracked, ok.trackedOnce⟩,
      first.1, first.2.1, rfl, fun _ => Or.inl rfl⟩
    have before := ok.free other
    rw [free, List.mem_cons] at before
    constructor
    · intro member
      have empty := before.1 (Or.inr member)
      refine ⟨empty.1, empty.2.1, fun same => once.1 ?_⟩
      cases same
      exact member
    · rintro ⟨inside, empty, apart⟩
      rcases before.2 ⟨inside, empty, by simp⟩ with rfl | member
      · exact absurd rfl apart
      · exact member
  · split at found
    · cases found
    · rename_i victim recency chosen
      cases found
      obtain ⟨held, listed, same⟩ := Option.map_eq_some_iff.1 chosen
      cases same
      have may := List.find?_some listed
      cases occupied : p.frame? index with
      | none => simp [mayGo, occupied] at may
      | some frame =>
          have clean : frame.page.isDirty = false := by simpa [mayGo, occupied] using may
          obtain ⟨tidy, empty, size, residents⟩ := ok.evict occupied rfl
          refine ⟨tidy, size ▸ lt_capacity occupied, empty, size, fun id => ?_⟩
          rw [residents]
          split
          · rename_i here
            exact Or.inr ⟨rfl, frame, ok.resident?_eq_some.2 ⟨_, occupied, here.symm⟩, clean⟩
          · exact Or.inl rfl

theorem frame?_place (frame : Frame) {index : Nat} (inside : index < p.capacity) (other : Nat) :
    (p.place index frame).frame? other = if other = index then some frame else p.frame? other :=
  frame?_set p index other (some frame) inside

section

variable {index : Nat} {frame : Frame}

theorem Tidy.consistent_place (tidy : p.Tidy (some index)) (inside : index < p.capacity)
    (empty : p.frame? index = none) (absent : p.directory.get? frame.id = none)
    (named : frame.page.id = frame.id) : (p.place index frame).Consistent := by
  have view := frame?_place frame inside
  have directory : ∀ id, (p.place index frame).directory.get? id =
      if id = frame.id then some index else p.directory.get? id :=
    fun id => FinMap.get?_insert _ _ _ _
  have size : (p.place index frame).capacity = p.capacity := by simp [Pool.place, capacity]
  refine ⟨fun id other found => ?_, fun other held found => ?_, fun other held found => ?_,
    fun other => ?_, tidy.freeOnce, fun other => ?_, nodup_touch tidy.trackedOnce⟩
  · rw [directory] at found
    split at found
    · rename_i here
      cases found
      exact ⟨frame, by rw [view, if_pos rfl], here.symm⟩
    · obtain ⟨held, there, own⟩ := tidy.located id other found
      refine ⟨held, ?_, own⟩
      rw [view, if_neg, there]
      rintro rfl
      rw [empty] at there
      cases there
  · rw [view] at found
    rw [directory]
    split at found
    · rename_i here
      cases found
      rw [if_pos rfl, here]
    · have there := tidy.listed other held found
      rw [if_neg, there]
      intro same
      rw [same, absent] at there
      cases there
  · rw [view] at found
    split at found
    · cases found
      exact named
    · exact tidy.named other held found
  · show other ∈ p.free ↔ _
    rw [tidy.free, size, view]
    by_cases here : other = index
    · simp [here]
    · simp [here, Ne.symm here]
  · show other ∈ (p.recency.touch index).order ↔ _
    rw [mem_touch tidy.trackedOnce, tidy.tracked, view]
    by_cases here : other = index <;> simp [here]

/-- A reserved frame is filled with a page that is not resident. -/
theorem Tidy.place (tidy : p.Tidy (some index)) (inside : index < p.capacity)
    (empty : p.frame? index = none) (absent : p.directory.get? frame.id = none)
    (named : frame.page.id = frame.id) :
    (p.place index frame).Consistent ∧ ∀ id, (p.place index frame).resident? id =
      if id = frame.id then some frame else p.resident? id := by
  have still := tidy.consistent_place inside empty absent named
  have view := frame?_place frame inside
  refine ⟨still, fun id => ?_⟩
  split
  · rename_i here
    exact still.resident?_eq_some.2 ⟨index, by rw [view, if_pos rfl], here.symm⟩
  · rename_i elsewhere
    refine tidy.resident?_congr still fun other held own => ?_
    rw [view]
    by_cases here : other = index
    · rw [if_pos here, here, empty]
      constructor
      · rintro ⟨⟩
        exact absurd own.symm elsewhere
      · rintro ⟨⟩
    · rw [if_neg here]

/-- A page that is resident stays in its frame. -/
theorem Consistent.place (ok : p.Consistent) (there : p.directory.get? frame.id = some index)
    (named : frame.page.id = frame.id) :
    (p.place index frame).Consistent ∧ ∀ id, (p.place index frame).resident? id =
      if id = frame.id then some frame else p.resident? id := by
  obtain ⟨old, occupied, own⟩ := ok.located frame.id index there
  have refilled := ok.refill occupied own.symm named
  have same : (p.directory.insert frame.id index).get? = p.directory.get? := by
    funext id
    rw [FinMap.get?_insert]
    split
    · rename_i here
      rw [here, there]
    · rfl
  have filled : (p.refill index frame).frame? index = some frame := by
    rw [frame?_refill occupied, if_pos rfl]
  have touched := refilled.touch filled
  refine ⟨⟨fun id other found => ?_, fun other held found => ?_, touched.named, touched.free,
    touched.freeOnce, touched.tracked, touched.trackedOnce⟩, fun id => ?_⟩
  · exact touched.located id other ((congrFun same id).symm.trans found)
  · exact (congrFun same held.id).trans (touched.listed other held found)
  · rw [← ok.resident?_refill occupied own.symm named]
    unfold resident? Pool.place
    simp only [same]
    rfl

end

/-- **Installing** a page makes it resident.  Of the others it may drop clean ones, and
does so only if the page was not resident before. -/
theorem Consistent.install (ok : p.Consistent) {frame : Frame} {after : Pool}
    (named : frame.page.id = frame.id) (done : p.install frame = .ok after) :
    after.Consistent ∧ after.resident? frame.id = some frame ∧
      (∀ id, id ≠ frame.id → after.resident? id = p.resident? id ∨
        p.resident? frame.id = none ∧ after.resident? id = none ∧
          ∃ held, p.resident? id = some held ∧ held.page.isDirty = false) := by
  unfold Pool.install at done
  split at done
  · rename_i index there
    cases done
    obtain ⟨consistent, residents⟩ := ok.place there named
    refine ⟨consistent, by rw [residents, if_pos rfl], fun id apart => Or.inl ?_⟩
    rw [residents, if_neg apart]
  · rename_i absent
    split at done
    · rename_i index room allocated
      cases done
      obtain ⟨tidy, inside, empty, -, sheds⟩ := ok.allocate allocated
      have nowhere := ok.resident?_eq_none.2 absent
      have absentNow : room.directory.get? frame.id = none := by
        rw [← tidy.resident?_eq_none]
        rcases sheds frame.id with same | ⟨gone, -⟩
        · rw [same, nowhere]
        · exact gone
      obtain ⟨consistent, residents⟩ := tidy.place inside empty absentNow named
      refine ⟨consistent, by rw [residents, if_pos rfl], fun id apart => ?_⟩
      rw [residents, if_neg apart]
      rcases sheds id with same | ⟨gone, held, there, clean⟩
      · exact Or.inl same
      · exact Or.inr ⟨nowhere, gone, held, there, clean⟩
    · cases done

theorem Consistent.stamp (ok : p.Consistent) : Consistent { p with nextStamp := p.nextStamp + 1 } :=
  ⟨ok.located, ok.listed, ok.named, ok.free, ok.freeOnce, ok.tracked, ok.trackedOnce⟩

theorem Consistent.bring (ok : p.Consistent) {page : Page} {frame : Frame} {after : Pool}
    (done : p.bring page = .ok (frame, after)) :
    frame.id = page.id ∧ frame.page = page ∧ after.Consistent ∧
      after.resident? page.id = some frame ∧
      (∀ id, id ≠ page.id → after.resident? id = p.resident? id ∨
        p.resident? page.id = none ∧ after.resident? id = none ∧
          ∃ held, p.resident? id = some held ∧ held.page.isDirty = false) := by
  unfold Pool.bring at done
  simp only at done
  split at done
  · rename_i installed
    cases done
    exact ⟨rfl, rfl, ok.stamp.install rfl installed⟩
  · cases done

/-! ## Capacity

Bringing a page in fails only when every resident page is dirty. -/

@[simp] theorem capacity_lookup (p : Pool) (id : PageId) :
    (p.lookup id).2.capacity = p.capacity := by
  unfold lookup
  split <;> rfl

@[simp] theorem capacity_place (p : Pool) (index : Nat) (frame : Frame) :
    (p.place index frame).capacity = p.capacity := by
  simp [place, capacity]

@[simp] theorem capacity_setPage (p : Pool) (index : Nat) (page : Page) :
    (p.setPage index page).capacity = p.capacity := by
  unfold setPage
  split
  · rfl
  · simp [capacity]

@[simp] theorem capacity_remove (p : Pool) (id : PageId) : (p.remove id).capacity = p.capacity := by
  unfold remove
  split
  · rfl
  · simp [capacity]

theorem capacity_foldl_remove (pages : List PageId) (p : Pool) :
    (pages.foldl remove p).capacity = p.capacity := by
  induction pages generalizing p with
  | nil => rfl
  | cons page rest ih => rw [List.foldl_cons, ih, capacity_remove]

theorem Consistent.capacity_install (ok : p.Consistent) {frame : Frame} {after : Pool}
    (done : p.install frame = .ok after) : after.capacity = p.capacity := by
  unfold Pool.install at done
  split at done
  · cases done
    exact capacity_place _ _ _
  · split at done
    · rename_i allocated
      cases done
      obtain ⟨-, -, -, same, -⟩ := ok.allocate allocated
      rw [capacity_place, same]
    · cases done

theorem Consistent.capacity_bring (ok : p.Consistent) {page : Page} {frame : Frame} {after : Pool}
    (done : p.bring page = .ok (frame, after)) : after.capacity = p.capacity := by
  unfold Pool.bring at done
  simp only at done
  split at done
  · rename_i installed
    cases done
    exact ok.stamp.capacity_install installed
  · cases done

/-! ## Counting the frames -/

/-- Every frame is free or tracked. -/
theorem Consistent.length_free_add_order (ok : p.Consistent) :
    p.free.length + p.recency.order.length = p.capacity := by
  have apart : (p.free ++ p.recency.order).Nodup := by
    rw [List.nodup_append]
    refine ⟨ok.freeOnce, ok.trackedOnce, ?_⟩
    rintro index empty other used rfl
    obtain ⟨frame, occupied⟩ := (ok.tracked index).1 used
    rw [((ok.free index).1 empty).2.1] at occupied
    cases occupied
  have all : (p.free ++ p.recency.order).Perm (List.range p.capacity) := by
    rw [List.perm_ext_iff_of_nodup apart List.nodup_range]
    intro index
    rw [List.mem_append, ok.free, ok.tracked, List.mem_range]
    constructor
    · rintro (⟨inside, -⟩ | ⟨frame, occupied⟩)
      · exact inside
      · exact lt_capacity occupied
    · intro inside
      cases content : p.frame? index with
      | none => exact Or.inl ⟨inside, rfl, nofun⟩
      | some frame => exact Or.inr ⟨frame, rfl⟩
  simpa using all.length_eq

/-- The directory has one entry for each tracked frame. -/
theorem Consistent.length_residents (ok : p.Consistent) :
    p.residents.length = p.recency.order.length := by
  have apart : p.directory.values.Nodup := by
    refine List.Nodup.map_on ?_ p.directory.nodup.of_map
    rintro ⟨id, index⟩ first ⟨other, same⟩ second rfl
    obtain ⟨frame, occupied, own⟩ := ok.located id index (FinMap.mem_entries.1 first)
    obtain ⟨held, again, named⟩ := ok.located other index (FinMap.mem_entries.1 second)
    rw [occupied] at again
    cases again
    rw [← own, ← named]
  have same : p.directory.values.Perm p.recency.order := by
    rw [List.perm_ext_iff_of_nodup apart ok.trackedOnce]
    intro index
    rw [ok.tracked]
    constructor
    · intro member
      obtain ⟨⟨id, _⟩, entry, rfl⟩ := List.mem_map.1 member
      obtain ⟨frame, occupied, -⟩ := ok.located id _ (FinMap.mem_entries.1 entry)
      exact ⟨frame, occupied⟩
    · rintro ⟨frame, occupied⟩
      have entry := FinMap.mem_entries.2 (ok.listed index frame occupied)
      exact List.mem_map.2 ⟨_, entry, rfl⟩
  rw [← same.length_eq, residents, PageId.sort, List.length_mergeSort]
  simp [FinMap.keys, FinMap.values]

theorem Consistent.mem_residents (ok : p.Consistent) {id : PageId} :
    id ∈ p.residents ↔ ∃ frame, p.resident? id = some frame := by
  rw [residents, PageId.sort, List.mem_mergeSort, FinMap.mem_keys]
  constructor
  · rintro ⟨index, listed⟩
    obtain ⟨frame, occupied, own⟩ := ok.located id index listed
    exact ⟨frame, ok.resident?_eq_some.2 ⟨index, occupied, own⟩⟩
  · rintro ⟨frame, there⟩
    obtain ⟨index, occupied, rfl⟩ := ok.resident?_eq_some.1 there
    exact ⟨index, ok.listed index frame occupied⟩

theorem residents_nodup (p : Pool) : p.residents.Nodup :=
  (List.mergeSort_perm _ _).nodup_iff.2 p.directory.keys_nodup

/-- There is a frame for one more page if fewer pages are dirty than there are frames. -/
theorem Consistent.allocate_isOk (ok : p.Consistent) {busy : List PageId}
    (few : busy.length < p.capacity) (dirty : ∀ id frame, p.resident? id = some frame →
      frame.page.isDirty = true → id ∈ busy) : ∃ index room, p.allocate = .ok (index, room) := by
  unfold Pool.allocate
  cases free : p.free with
  | cons index rest => exact ⟨index, _, rfl⟩
  | nil =>
      obtain ⟨id, frame, there, clean⟩ : ∃ id frame, p.resident? id = some frame ∧
          frame.page.isDirty = false := by
        by_contra none
        have all : p.residents ⊆ busy := by
          intro id member
          obtain ⟨frame, there⟩ := ok.mem_residents.1 member
          refine dirty id frame there ?_
          by_contra clean
          exact none ⟨id, frame, there, by simpa using clean⟩
        have fits := (List.subperm_of_subset p.residents_nodup all).length_le
        have total := ok.length_free_add_order
        rw [free, List.length_nil, ← ok.length_residents] at total
        omega
      obtain ⟨index, occupied, -⟩ := ok.resident?_eq_some.1 there
      have tracked := (ok.tracked index).2 ⟨frame, occupied⟩
      have may : p.mayGo index = true := by simp [mayGo, occupied, clean]
      obtain ⟨victim, found⟩ : ∃ victim, p.recency.order.find? p.mayGo = some victim := by
        rw [← Option.isSome_iff_exists, List.find?_isSome]
        exact ⟨index, tracked, may⟩
      simp only [Recency.victim?, found, Option.map_some]
      exact ⟨victim, _, rfl⟩

theorem Consistent.bring_isOk (ok : p.Consistent) {busy : List PageId}
    (few : busy.length < p.capacity) (dirty : ∀ id frame, p.resident? id = some frame →
      frame.page.isDirty = true → id ∈ busy) (page : Page) :
    ∃ frame after, p.bring page = .ok (frame, after) := by
  obtain ⟨index, room, allocated⟩ := ok.stamp.allocate_isOk few dirty
  unfold Pool.bring Pool.install
  simp only [allocated]
  cases p.directory.get? page.id with
  | none => exact ⟨_, _, rfl⟩
  | some index => exact ⟨_, _, rfl⟩

/-! ## Dropping pages -/

theorem Consistent.remove (ok : p.Consistent) (id : PageId) :
    (p.remove id).Consistent ∧
      ∀ other, (p.remove id).resident? other = if other = id then none else p.resident? other := by
  unfold Pool.remove
  cases there : p.directory.get? id with
  | none =>
      refine ⟨ok, fun other => ?_⟩
      by_cases here : other = id
      · rw [if_pos here, here]
        exact ok.resident?_eq_none.2 there
      · rw [if_neg here]
  | some index =>
      obtain ⟨frame, occupied, rfl⟩ := ok.located id index there
      obtain ⟨view, located, listed, residents⟩ := ok.emptied occupied
        { p with
          frames := p.frames.setIfInBounds index none
          directory := p.directory.erase frame.id
          free := index :: p.free
          recency := p.recency.forget index } rfl rfl
      refine ⟨⟨located, listed, fun other kept found => ?_, fun other => ?_, ?_, fun other => ?_,
        ok.trackedOnce.erase index⟩, residents⟩
      · rw [view] at found
        split at found
        · cases found
        · exact ok.named other kept found
      · show other ∈ index :: p.free ↔ _
        rw [List.mem_cons, ok.free, view]
        simp only [capacity, Array.size_setIfInBounds]
        by_cases here : other = index
        · have inside := lt_capacity occupied
          unfold capacity at inside
          simp [here, inside]
        · simp [here]
      · rw [List.nodup_cons]
        refine ⟨fun member => ?_, ok.freeOnce⟩
        have empty := ((ok.free index).1 member).2.1
        rw [occupied] at empty
        cases empty
      · show other ∈ p.recency.order.erase index ↔ _
        rw [ok.trackedOnce.mem_erase_iff, ok.tracked, view]
        by_cases here : other = index <;> simp [here]

theorem Consistent.foldl_remove (pages : List PageId) (ok : p.Consistent) :
    (pages.foldl Pool.remove p).Consistent ∧ ∀ id, (pages.foldl Pool.remove p).resident? id =
      if id ∈ pages then none else p.resident? id := by
  induction pages generalizing p with
  | nil => exact ⟨ok, fun _ => rfl⟩
  | cons page rest ih =>
      obtain ⟨consistent, removed⟩ := ok.remove page
      obtain ⟨after, residents⟩ := ih consistent
      refine ⟨after, fun id => ?_⟩
      rw [List.foldl_cons, residents, removed]
      by_cases here : id = page
      · simp [here]
      · simp [here]

theorem Consistent.dirtiedBy_eq_nil_iff (ok : p.Consistent) {txn : TxnId} :
    p.dirtiedBy txn = [] ↔
      ∀ id frame, p.resident? id = some frame → frame.page.mark ≠ some txn := by
  rw [List.eq_nil_iff_forall_not_mem]
  constructor
  · intro none id frame there marked
    obtain ⟨index, occupied, -⟩ := ok.resident?_eq_some.1 there
    exact none (index, frame) (mem_dirtiedBy.2 ⟨occupied, marked⟩)
  · rintro unmarked ⟨index, frame⟩ member
    obtain ⟨occupied, marked⟩ := mem_dirtiedBy.1 member
    exact unmarked frame.id frame (ok.resident?_eq_some.2 ⟨index, occupied, rfl⟩) marked

/-- Dropping what a transaction changed leaves exactly the other pages. -/
theorem Consistent.foldl_remove_dirtiedBy (ok : p.Consistent) (txn : TxnId) {after : Pool}
    (dropped : after = (p.dirtiedBy txn).foldl (fun q e => q.remove e.2.id) p) :
    after.Consistent ∧ ∀ id, after.resident? id =
      (p.resident? id).filter fun frame => decide (frame.page.mark ≠ some txn) := by
  have listed : ∀ id, id ∈ ((p.dirtiedBy txn).map fun e => e.2.id) ↔
      ∃ frame, p.resident? id = some frame ∧ frame.page.mark = some txn := by
    intro id
    simp only [List.mem_map, Prod.exists, mem_dirtiedBy, ok.resident?_eq_some]
    constructor
    · rintro ⟨index, frame, ⟨found, own⟩, rfl⟩
      exact ⟨frame, ⟨index, found, rfl⟩, own⟩
    · rintro ⟨frame, ⟨index, found, rfl⟩, own⟩
      exact ⟨index, frame, ⟨found, own⟩, rfl⟩
  have folded : after = ((p.dirtiedBy txn).map fun e => e.2.id).foldl Pool.remove p := by
    rw [dropped, List.foldl_map]
  obtain ⟨consistent, residents⟩ := ok.foldl_remove ((p.dirtiedBy txn).map fun e => e.2.id)
  refine ⟨folded ▸ consistent, fun id => ?_⟩
  rw [folded, residents]
  cases there : p.resident? id with
  | none => simp
  | some frame =>
      have own := listed id
      rw [there] at own
      by_cases mine : frame.page.mark = some txn
      · rw [if_pos (own.2 ⟨frame, rfl, mine⟩)]
        simp [Option.filter, mine]
      · rw [if_neg]
        · simp [Option.filter, mine]
        · intro member
          obtain ⟨held, same, marked⟩ := own.1 member
          cases same
          exact mine marked

end Pool

end RowStore
