/-
# RowStore.Catalog -- the tables a store knows, by id and by name

A table is registered under one name, and a name stands for one table.  Registering
a table again under another name drops its old name; giving a name to another table
drops the table that had it.
-/
import RowStore.FinMap
import RowStore.Schema

namespace RowStore

set_option autoImplicit false

/-- A table file: where its bytes lie and what its rows are. -/
structure TableFile where
  id : TableId
  path : String
  schema : Schema
  pageSize : Nat
deriving DecidableEq, Repr, Inhabited

structure CatalogEntry where
  name : String
  file : TableFile
deriving DecidableEq, Repr

structure Catalog where
  tables : FinMap TableId CatalogEntry
  names : FinMap String TableId

namespace Catalog

def empty : Catalog := ⟨∅, ∅⟩

/-- Give the name to the file's table. -/
def claimName (c : Catalog) (name : String) (id : TableId) : Catalog :=
  let tables :=
    match c.names.get? name with
    | some old => if old = id then c.tables else c.tables.erase old
    | none => c.tables
  ⟨tables, c.names.insert name id⟩

/-- Forget another name that the table had. -/
def dropOldName (c : Catalog) (name : String) (id : TableId) : Catalog :=
  match c.tables.get? id with
  | some old =>
      if old.name ≠ name ∧ c.names.get? old.name = some id then
        { c with names := c.names.erase old.name }
      else c
  | none => c

/-- Register a table file under a name. -/
def add (c : Catalog) (name : String) (file : TableFile) : Catalog :=
  let cleared := (c.claimName name file.id).dropOldName name file.id
  { cleared with tables := cleared.tables.insert file.id ⟨name, file⟩ }

def file (c : Catalog) (id : TableId) : Except Fault TableFile :=
  match c.tables.get? id with
  | some entry => .ok entry.file
  | none => .error (.tableNotFound id)

def schema (c : Catalog) (id : TableId) : Except Fault Schema := (c.file id).map TableFile.schema

def idOf (c : Catalog) (name : String) : Except Fault TableId :=
  match c.names.get? name with
  | some id => .ok id
  | none => .error (.unknownTable name)

def nameOf (c : Catalog) (id : TableId) : Except Fault String :=
  match c.tables.get? id with
  | some entry => .ok entry.name
  | none => .error (.tableNotFound id)

/-- The registered tables, by ascending id. -/
def ids (c : Catalog) : List TableId := c.tables.keys.mergeSort fun a b => decide (a ≤ b)

/-- Registering a file makes no other file known. -/
theorem file_add {c : Catalog} {name : String} {file held : TableFile} {id : TableId}
    (found : (c.add name file).file id = .ok held) :
    id = file.id ∧ held = file ∨ c.file id = .ok held := by
  have claimed : ∀ entry, (c.claimName name file.id).tables.get? id = some entry →
      c.tables.get? id = some entry := by
    intro entry listed
    unfold claimName at listed
    cases old : c.names.get? name with
    | none => simpa [old] using listed
    | some other =>
        by_cases same : other = file.id
        · simpa [old, same] using listed
        · simp only [old, same, if_false, FinMap.get?_erase] at listed
          split at listed
          · cases listed
          · exact listed
  have dropped : ((c.claimName name file.id).dropOldName name file.id).tables =
      (c.claimName name file.id).tables := by
    unfold dropOldName
    split
    · split <;> rfl
    · rfl
  unfold Catalog.file add at found
  simp only [FinMap.get?_insert, dropped] at found
  by_cases own : id = file.id
  · simp only [own, if_true, Except.ok.injEq] at found
    exact Or.inl ⟨own, found.symm⟩
  · simp only [own, if_false] at found
    refine Or.inr ?_
    cases listed : (c.claimName name file.id).tables.get? id with
    | none => simp [listed] at found
    | some entry =>
        simp only [listed] at found
        rw [Catalog.file, claimed entry listed]
        exact found

end Catalog

end RowStore
