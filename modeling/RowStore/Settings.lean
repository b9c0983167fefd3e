/-
# RowStore.Settings -- the three numbers and places a store is opened with
-/
import RowStore.Path

namespace RowStore

set_option autoImplicit false

structure Settings where
  /-- The directory that holds one file per table. -/
  directory : String
  pageSize : Nat
  poolPages : Nat
deriving DecidableEq, Repr

namespace Settings

/-- The largest page whose slots a row id can address. -/
def largestPage : Nat := 65536

def defaultPageSize : Nat := 4096

def defaultPoolPages : Nat := 50

def default : Settings := ⟨"heapdb_data", defaultPageSize, defaultPoolPages⟩

instance : Inhabited Settings := ⟨default⟩

/-- Pages have between one byte and `largestPage`, and the pool at least one frame. -/
def validate (s : Settings) : Except Fault Unit :=
  if s.pageSize = 0 ∨ largestPage < s.pageSize then
    .error (.badConfig (.pageSize largestPage s.pageSize))
  else if s.poolPages = 0 then .error (.badConfig .noFrames)
  else .ok ()

def tablePath (s : Settings) (table : String) : String := Path.ofTable s.directory table

theorem validate_eq_ok_iff {s : Settings} :
    s.validate = .ok () ↔ (0 < s.pageSize ∧ s.pageSize ≤ largestPage) ∧ 0 < s.poolPages := by
  unfold validate
  split
  · rename_i wrong
    constructor
    · intro impossible
      cases impossible
    · rintro ⟨⟨_, _⟩, _⟩
      omega
  · split
    · constructor
      · intro impossible
        cases impossible
      · rintro ⟨_, _⟩
        omega
    · simp only [true_iff]
      omega

end Settings

end RowStore
