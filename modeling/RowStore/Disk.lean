/-
# RowStore.Disk -- the files that a store works on

Files lie by canonical path.  The only directories are the home directory of the
store and those above it, so a path leads to a file only when every name before
the last stays on the way to the home directory.  `locate` follows a path as far
as that and says what stops it.
-/
import RowStore.FileContent
import RowStore.FinMap
import RowStore.Path

namespace RowStore

set_option autoImplicit false

structure Disk where
  /-- The names on the way to the home directory, innermost first. -/
  home : List String
  files : FinMap String FileContent

namespace Disk

/-- No files yet, and a home directory. -/
def new (directory : String) : Disk := ⟨(Path.names directory).foldl Path.follow [], ∅⟩

def homePath (d : Disk) : String := Path.ofNames d.home

/-- The longest name of a file, in bytes. -/
def nameLimit : Nat := 255

/-- The longest path, in bytes. -/
def pathLimit : Nat := 4095

def isDirectory (d : Disk) (reached : List String) : Bool := reached.isSuffixOf d.home

/-- Enter the directory of that name. -/
def enter (d : Disk) (reached : List String) (name : String) :
    Except FileFault (List String) :=
  let there := Path.follow reached name
  if nameLimit < (Utf8.bytes name).length then .error .nameTooLong
  else if d.isDirectory there then .ok there
  else if (d.files.get? (Path.ofNames there)).isSome then .error .notADirectory
  else .error .noSuchFile

/-- Follow the names to a file, whose directory has to exist. -/
def walk (d : Disk) (reached : List String) : List String → Except FileFault String
  | [] => .error .noSuchFile
  | [name] =>
      if nameLimit < (Utf8.bytes name).length then .error .nameTooLong
      else .ok (Path.ofNames (Path.follow reached name))
  | name :: rest =>
      match d.enter reached name with
      | .ok there => d.walk there rest
      | .error fault => .error fault

/-- The canonical path of a file that exists or could be created. -/
def locate (d : Disk) (path : String) : Except FileFault String :=
  if path.toList.contains (Char.ofNat 0) then .error .nulInName
  else if pathLimit < (Utf8.bytes path).length then .error .nameTooLong
  else d.walk [] (Path.names path)

def read? (d : Disk) (path : String) : Option FileContent := d.files.get? path

/-- What a file holds, nothing if it does not exist. -/
def content (d : Disk) (path : String) : FileContent := (d.read? path).getD .empty

def write (d : Disk) (path : String) (content : FileContent) : Disk :=
  { d with files := d.files.insert path content }

end Disk

end RowStore
