/-
# RowStore.Main -- the program on real files

The outer layer reads the table's file, runs the invocation on it, writes back what
changed and prints.  All decisions are made by `CommandLine.readInvocation` and
`CommandLine.execute`.
-/
import RowStore.CommandLine.Help
import RowStore.CommandLine.Program

namespace RowStore

set_option autoImplicit false

namespace CommandLine

def Command.table : Command → String
  | .load table _ | .scan table | .stats table _ _ => table

/-- So many small letters. -/
def letters : Nat → StdGen → List Char
  | 0, _ => []
  | count + 1, source =>
      let (letter, rest) := randNat source 0 25
      Char.ofNat ('a'.toNat + letter) :: letters count rest

/-- A name of three to eleven small letters for every row number. -/
def nameFrom (seed : Nat) (row : Int32) : String :=
  let (length, source) := randNat (mkStdGen (seed + row.toInt.toNat)) 3 11
  String.ofList (letters length source)

/-- The directory's files, of which only the table's is looked at. -/
def readDisk (settings : Settings) (table : String) : IO Disk := do
  let disk := Disk.new settings.directory
  match disk.locate (settings.tablePath table) with
  | .error _ => return disk
  | .ok path =>
      try
        let bytes ← IO.FS.readBinFile path
        return disk.write path (.ofImage bytes.data)
      catch _ => return disk

/-- Write the files that differ from those that were read. -/
def writeDisk (before after : Disk) : IO Unit :=
  after.files.entries.forM fun (path, content) => do
    if before.read? path ≠ some content then IO.FS.writeBinFile path ⟨content.image⟩

/-- Run an invocation whose directory exists and is named by its absolute path. -/
def runIn (invocation : Invocation) : IO UInt32 := do
  let seed ← IO.rand 0 UInt32.size
  let disk ← readDisk invocation.settings invocation.command.table
  let outcome := execute invocation (nameFrom seed) disk
  writeDisk disk outcome.disk
  outcome.lines.forM fun line => IO.println line
  IO.eprint outcome.complaint
  return outcome.code.toUInt32

/-- The settings with their directory made and named by its absolute path.  Settings
that are refused are left to `execute`. -/
def prepare (settings : Settings) : IO Settings := do
  if settings.validate.isOk then
    IO.FS.createDirAll settings.directory
    let directory ← IO.FS.realPath settings.directory
    return { settings with directory := toString directory }
  else return settings

def run (invocation : Invocation) : IO UInt32 := do
  match ← (prepare invocation.settings).toBaseIO with
  | .ok settings => runIn { invocation with settings }
  | .error failure =>
      let text := toString failure
      IO.eprint (Failure.complaintOf [openingAttempt, "IO error: " ++ text, text])
      return 1

end CommandLine

end RowStore

def main (args : List String) : IO UInt32 := do
  match RowStore.CommandLine.readInvocation args with
  | .ok invocation => RowStore.CommandLine.run invocation
  | .error refused =>
      refused.lines.forM fun line => IO.println line
      IO.eprint refused.complaint
      return refused.code.toUInt32
