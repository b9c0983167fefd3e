/-
# RowStore.Proofs.Pool.LeastRecent -- the order of the frames is that of their last uses

A recency order keeps no times.  What it should answer is said here on the log of the calls that
were made of it: a frame is `Tracked` from a use until it is removed or chosen, and the frame to
choose is the tracked one that may go and whose last use is the oldest.

The order agrees with the log after every call (`Reflects.perform`), so after any calls the frames
in it are the tracked ones, each once, and the choice of a victim is the right one
(`order_of_calls`).
-/
import Mathlib.Data.Set.Card
import RowStore.Proofs.Pool.History

namespace RowStore

set_option autoImplicit false

namespace Recency

/-! ## Calls and their log -/

/-- What can be asked of a recency order. -/
inductive Call where
  | use (frame : Nat)
  | remove (frame : Nat)
  | choose (mayGo : Nat → Bool)

/-- The frame that a call chooses, if it does, and the order that it leaves. -/
def perform (r : Recency) : Call → Option Nat × Recency
  | .use frame => (none, r.touch frame)
  | .remove frame => (none, r.forget frame)
  | .choose mayGo =>
      match r.victim? mayGo with
      | some (frame, rest) => (some frame, rest)
      | none => (none, r)

/-- A call that was made, and the frame that it chose. -/
structure Entry where
  call : Call
  chosen : Option Nat

namespace Entry

/-- The frame that was used. -/
def used (e : Entry) : Option Nat :=
  match e.call with
  | .use frame => some frame
  | _ => none

/-- The frame that was forgotten: removed, or chosen. -/
def dropped (e : Entry) : Option Nat :=
  match e.call with
  | .remove frame => some frame
  | _ => e.chosen

end Entry

/-- An order with the log of the calls that led to it. -/
structure Logged where
  log : List Entry
  recency : Recency

namespace Logged

/-- Make one more call. -/
def record (s : Logged) (call : Call) : Logged :=
  let (chosen, after) := s.recency.perform call
  ⟨s.log ++ [⟨call, chosen⟩], after⟩

/-- These calls made of an order that tracks nothing. -/
def ofCalls (calls : List Call) : Logged := calls.foldl record ⟨[], empty⟩

end Logged

/-- The frames that were used, use by use. -/
def uses (log : List Entry) : List Nat := log.filterMap Entry.used

/-- The frame was used, and neither removed nor chosen since. -/
def Tracked (log : List Entry) (frame : Nat) : Prop :=
  ∃ early entry late, log = early ++ entry :: late ∧ entry.used = some frame ∧
    ∀ later ∈ late, later.dropped ≠ some frame

/-- What choosing a victim has to answer and to leave after these calls. -/
structure Chooses (log : List Entry) (r : Recency) (mayGo : Nat → Bool) (chosen : Option Nat)
    (rest : Recency) : Prop where
  oldest : ∀ frame, chosen = some frame →
    Tracked log frame ∧ mayGo frame = true ∧
      ∀ other, Tracked log other → mayGo other = true → other ≠ frame →
        Older (uses log) frame other
  forgets : ∀ frame, chosen = some frame → rest.order = r.order.erase frame
  none_iff : chosen = none ↔ ∀ frame, Tracked log frame → mayGo frame = false
  unchanged : chosen = none → rest = r

/-- The order is what the log says. -/
structure Reflects (log : List Entry) (r : Recency) : Prop where
  distinct : r.order.Nodup
  tracked : ∀ frame, frame ∈ r.order ↔ Tracked log frame
  follows : r.Follows some (uses log)

variable {log : List Entry} {r : Recency} {entry : Entry} {frame : Nat}

/-! ## One more entry -/

theorem uses_snoc (log : List Entry) (entry : Entry) :
    uses (log ++ [entry]) = uses log ++ entry.used.toList := by
  cases same : entry.used <;> simp [uses, same]

theorem tracked_snoc :
    Tracked (log ++ [entry]) frame ↔
      entry.used = some frame ∨ Tracked log frame ∧ entry.dropped ≠ some frame := by
  constructor
  · rintro ⟨early, first, late, same, used, kept⟩
    rcases List.eq_nil_or_concat late with rfl | ⟨before, last, rfl⟩
    · obtain ⟨-, same⟩ := List.append_inj' same rfl
      obtain rfl := List.singleton_inj.1 same
      exact Or.inl used
    · rw [List.concat_eq_append] at same kept
      rw [← List.cons_append, ← List.append_assoc] at same
      obtain ⟨rfl, last⟩ := List.append_inj' same rfl
      obtain rfl := List.singleton_inj.1 last
      refine Or.inr ⟨⟨early, first, before, rfl, used, fun later member => ?_⟩, ?_⟩
      · exact kept later (List.mem_append_left _ member)
      · exact kept entry (List.mem_append_right _ (List.mem_singleton_self entry))
  · rintro (used | ⟨⟨early, first, late, rfl, used, kept⟩, still⟩)
    · exact ⟨log, entry, [], rfl, used, nofun⟩
    · refine ⟨early, first, late ++ [entry], by simp, used, fun later member => ?_⟩
      rcases List.mem_append.1 member with before | last
      · exact kept later before
      · rw [List.mem_singleton.1 last]
        exact still

/-! ## One more call -/

theorem perform_choose (r : Recency) (mayGo : Nat → Bool) :
    r.perform (.choose mayGo) =
      match r.order.find? mayGo with
      | some frame => (some frame, r.forget frame)
      | none => (none, r) := by
  simp only [perform, victim?]
  cases r.order.find? mayGo <;> rfl

theorem reflects_empty : Reflects [] empty :=
  ⟨List.nodup_nil, fun frame => by simp [empty, Tracked], List.Pairwise.nil⟩

/-- A frame that is forgotten leaves the others as they were. -/
theorem Reflects.forget (reflects : Reflects log r) (unused : entry.used = none)
    (dropped : entry.dropped = some frame) : Reflects (log ++ [entry]) (r.forget frame) := by
  refine ⟨reflects.distinct.erase frame, fun other => ?_, ?_⟩
  · rw [Recency.forget, reflects.distinct.mem_erase_iff, reflects.tracked, tracked_snoc, unused,
      dropped]
    simp [and_comm, eq_comm]
  · rw [uses_snoc, unused, Option.toList_none, List.append_nil]
    exact reflects.follows.of_sublist List.erase_sublist fun _ _ => rfl

/-- A frame that is used comes last. -/
theorem Reflects.touch (reflects : Reflects log r) (used : entry.used = some frame)
    (kept : entry.dropped = none) : Reflects (log ++ [entry]) (r.touch frame) := by
  refine ⟨?_, fun other => ?_, ?_⟩
  · refine List.nodup_append.2 ⟨reflects.distinct.erase frame, List.nodup_singleton frame, ?_⟩
    intro other member last same
    rw [List.mem_singleton.1 same]
    exact (reflects.distinct.mem_erase_iff.1 member).1
  · rw [tracked_snoc, used, kept, ← reflects.tracked]
    by_cases here : other = frame
    · simp [Recency.touch, here]
    · simp [Recency.touch, List.mem_erase_of_ne here, here, Ne.symm here]
  · rw [uses_snoc, used, Option.toList_some]
    refine reflects.follows.touch reflects.distinct rfl fun other _ apart => ⟨rfl, ?_⟩
    simpa using apart

/-- A call that chooses no frame changes nothing but the log. -/
theorem Reflects.idle (reflects : Reflects log r) (unused : entry.used = none)
    (kept : entry.dropped = none) : Reflects (log ++ [entry]) r := by
  refine ⟨reflects.distinct, fun other => ?_, ?_⟩
  · rw [tracked_snoc, unused, kept, reflects.tracked]
    simp
  · rw [uses_snoc, unused, Option.toList_none, List.append_nil]
    exact reflects.follows

/-- **One call** keeps the order in step with the log. -/
theorem Reflects.perform (reflects : Reflects log r) (call : Call) :
    Reflects (log ++ [⟨call, (r.perform call).1⟩]) (r.perform call).2 := by
  cases call with
  | use frame => exact reflects.touch rfl rfl
  | remove frame => exact reflects.forget rfl rfl
  | choose mayGo =>
      rw [perform_choose]
      cases r.order.find? mayGo with
      | none => exact reflects.idle rfl rfl
      | some frame => exact reflects.forget rfl rfl

/-- **The choice of a victim** is the oldest of the frames that may go. -/
theorem Reflects.chooses (reflects : Reflects log r) (mayGo : Nat → Bool) :
    Chooses log r mayGo (r.perform (.choose mayGo)).1 (r.perform (.choose mayGo)).2 := by
  rw [perform_choose]
  cases found : r.order.find? mayGo with
  | none =>
      refine ⟨nofun, nofun, ⟨fun _ frame tracked => ?_, fun _ => rfl⟩, fun _ => rfl⟩
      simpa using List.find?_eq_none.1 found frame ((reflects.tracked frame).2 tracked)
  | some victim =>
      have may := List.find?_some found
      have tracked := (reflects.tracked victim).1 (List.mem_of_find?_eq_some found)
      refine ⟨?_, ?_, ⟨nofun, fun none => ?_⟩, nofun⟩
      · rintro _ ⟨⟩
        refine ⟨tracked, may, fun other listed goes apart => ?_⟩
        exact reflects.follows.older_of_victim found ((reflects.tracked other).2 listed) goes apart
          rfl rfl
      · rintro _ ⟨⟩
        rfl
      · have stays := none victim tracked
        rw [may] at stays
        cases stays

/-! ## All calls -/

theorem Logged.reflects_record {s : Logged} (reflects : Reflects s.log s.recency) (call : Call) :
    Reflects (s.record call).log (s.record call).recency :=
  reflects.perform call

theorem Logged.reflects_ofCalls (calls : List Call) :
    Reflects (ofCalls calls).log (ofCalls calls).recency := by
  have kept : ∀ s : Logged, Reflects s.log s.recency →
      Reflects (calls.foldl record s).log (calls.foldl record s).recency := by
    induction calls with
    | nil => exact fun _ reflects => reflects
    | cons call calls ih => exact fun s reflects => ih (s.record call) (reflects_record reflects call)
  exact kept ⟨[], empty⟩ reflects_empty

/-- **After any calls** the order lists the tracked frames, each once and as many as there are, and
chooses the oldest of those that may go. -/
theorem order_of_calls (calls : List Call) :
    let s := Logged.ofCalls calls
    s.recency.order.Nodup ∧ (∀ frame, frame ∈ s.recency.order ↔ Tracked s.log frame) ∧
      s.recency.size = {frame | Tracked s.log frame}.ncard ∧
        ∀ mayGo, Chooses s.log s.recency mayGo (s.recency.perform (.choose mayGo)).1
          (s.recency.perform (.choose mayGo)).2 := by
  intro s
  have reflects : Reflects s.log s.recency := Logged.reflects_ofCalls calls
  refine ⟨reflects.distinct, reflects.tracked, ?_, reflects.chooses⟩
  have listed : {frame | Tracked s.log frame} = (s.recency.order.toFinset : Set Nat) := by
    ext frame
    rw [List.coe_toFinset]
    exact (reflects.tracked frame).symm
  rw [listed, Set.ncard_coe_finset, List.toFinset_card_of_nodup reflects.distinct, size]

example : (Logged.ofCalls [.use 1, .use 2, .use 1, .choose fun _ => true]).log.map Entry.chosen =
    [none, none, none, some 2] := rfl

end Recency

end RowStore
