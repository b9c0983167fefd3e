/-
# RowStore.Recency -- which frame was used least recently

The tracked frames stand in the order of their last use, the oldest first.  A
victim is the oldest frame that the caller allows to go.
-/

namespace RowStore

set_option autoImplicit false

/-- Tracked frames, least recently used first. -/
structure Recency where
  order : List Nat
deriving DecidableEq, Repr

namespace Recency

def empty : Recency := ⟨[]⟩

def size (r : Recency) : Nat := r.order.length

/-- Drop a frame from the order. -/
def forget (r : Recency) (frame : Nat) : Recency := ⟨r.order.erase frame⟩

/-- Note a use: the frame becomes the most recent one. -/
def touch (r : Recency) (frame : Nat) : Recency := ⟨r.order.erase frame ++ [frame]⟩

/-- The least recently used frame that may go, and the order without it. -/
def victim? (r : Recency) (mayGo : Nat → Bool) : Option (Nat × Recency) :=
  (r.order.find? mayGo).map fun frame => (frame, r.forget frame)

end Recency

end RowStore
