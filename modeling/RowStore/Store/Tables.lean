/-
# RowStore.Store.Tables -- creating, opening and looking at tables
-/
import RowStore.Store.Access

namespace RowStore

set_option autoImplicit false

namespace TableFile

/-- A table file at a canonical path.  A page has to have room for a row. -/
def at? (path : String) (schema : Schema) (pageSize : Nat) : Except Fault TableFile :=
  let rowBytes := schema.rowBytes
  if rowBytes = 0 ∨ slotCount pageSize rowBytes = 0 then
    .error (.badShape (.rowWiderThanPages rowBytes pageSize))
  else .ok ⟨TableId.ofPath path, path, schema, pageSize⟩

end TableFile

namespace StoreAction

/-- The canonical path of a table's file. -/
def locate (name : String) : StoreAction String :=
  query fun s => (s.disk.locate (s.settings.tablePath name)).mapError Fault.file

/-- Make the file an empty one. -/
def clearFile (path : String) : StoreAction Unit :=
  modify fun s => { s with disk := s.disk.write path .empty }

def register (name : String) (file : TableFile) : StoreAction TableId := do
  modify fun s => { s with catalog := s.catalog.add name file }
  return file.id

/-- Forget every table; their files stay. -/
def clearCatalog : StoreAction Unit := modify fun s => { s with catalog := .empty }

/-- A table of that name with uncommitted changes must not be replaced. -/
def checkIdle (name : String) : StoreAction Unit :=
  query fun s =>
    match s.catalog.idOf name with
    | .ok id => if s.pool.hasDirty id then .error (.tableBusy id) else .ok ()
    | .error _ => .ok ()

/-- Drop every resident page of a table. -/
def discardTable (table : TableId) : StoreAction Unit :=
  modifyPool fun pool =>
    (pool.residents.filter fun id => id.table = table).foldl Pool.remove pool

/-- Create an empty table, replacing any file of that name. -/
def createTable (name : String) (schema : Schema) : StoreAction TableId := do
  checkIdle name
  let path ← locate name
  clearFile path
  let file ← query fun s => TableFile.at? path schema s.settings.pageSize
  discardTable file.id
  register name file

/-- Register the table in the file of that name, creating an empty file if there is
none.  A name that is registered already stands for its table. -/
def openTable (name : String) (schema : Schema) : StoreAction TableId := do
  match (← get).catalog.idOf name with
  | .ok id => return id
  | .error _ =>
      let path ← locate name
      if ((← get).disk.read? path).isNone then clearFile path
      let file ← query fun s => TableFile.at? path schema s.settings.pageSize
      register name file

end StoreAction

end RowStore
