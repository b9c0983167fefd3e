/-
# RowStore.Path -- file paths and the ids of tables

A path is a text in which slashes separate names.  `join` puts a relative path
under a directory and lets an absolute one stand.  `canonical` is the form of an
absolute path in which empty names and single dots are dropped and a double dot
has taken the name before it away.  The id of a table is a 32-bit hash of its
file's canonical path, so every way of naming one file gives one id.
-/
import RowStore.Fault

namespace RowStore

set_option autoImplicit false

namespace Path

def isAbsolute (path : String) : Bool := path.startsWith "/"

/-- A path under a directory; an absolute path stands for itself. -/
def join (directory path : String) : String :=
  if isAbsolute path || directory.isEmpty then path
  else if directory.endsWith "/" then directory ++ path
  else directory ++ "/" ++ path

/-- The path of the file that holds a table. -/
def ofTable (directory table : String) : String := join directory (table ++ ".dat")

/-- Follow one name from the directory reached so far, innermost name first. -/
def follow (reached : List String) (name : String) : List String :=
  if name = "" ∨ name = "." then reached
  else if name = ".." then reached.drop 1
  else name :: reached

/-- The path of a place given by its names, innermost first. -/
def ofNames (reached : List String) : String := "/" ++ String.intercalate "/" reached.reverse

def names (path : String) : List String := path.splitOn "/"

def canonical (path : String) : String := ofNames ((names path).foldl follow [])

/-- The last name of a path. -/
def fileName (path : String) : String := (names path).getLastD ""

end Path

/-! ## Table ids -/

namespace TableId

def hashBasis : UInt32 := 0x811c9dc5

def hashPrime : UInt32 := 0x01000193

def hashStep (hash : UInt32) (byte : UInt8) : UInt32 := (hash ^^^ byte.toUInt32) * hashPrime

/-- The FNV-1a hash of a list of bytes. -/
def hash (bytes : List UInt8) : UInt32 := bytes.foldl hashStep hashBasis

/-- The id of the table whose file has this canonical path. -/
def ofPath (path : String) : TableId := hash (Utf8.bytes path)

/-- The id of the table of that name in a directory. -/
def ofName (directory name : String) : TableId :=
  ofPath (Path.canonical (Path.ofTable directory name))

end TableId

end RowStore
