/-
# RowStore.CommandLine.Invocation -- what the program is asked to do

The program has three commands.  `load` creates a table of numbered people and fills
it, `scan` prints a table, `stats` prints what is known of its ids.  The options of
the program stand before the command, those of the command after it.  A command is
read before the last option in front of it is settled, so help on a command is given
even if the value of that option is wrong.
-/
import RowStore.CommandLine.Arguments
import RowStore.Settings

namespace RowStore

set_option autoImplicit false

namespace CommandLine

inductive Command where
  | load (table : String) (rows : Int32)
  | scan (table : String)
  | stats (table : String) (below? : Option Int32) (buckets : Nat)
deriving DecidableEq, Repr

structure Invocation where
  settings : Settings
  debug : Bool
  command : Command
deriving DecidableEq, Repr

def defaultDirectory : String := "./heapdb_data"

def defaultRows : Int32 := 1000

def defaultBuckets : Nat := 10

/-! ## Options -/

/-- A 32-bit integer. -/
def int32? (s : String) : Option Int :=
  match wholeNumber? true s with
  | some n => if Int32.minValue.toInt ≤ n ∧ n ≤ Int32.maxValue.toInt then some n else none
  | none => none

/-- A count that fits a machine word. -/
def count? (s : String) : Option Nat :=
  match wholeNumber? false s with
  | some n => if n.toNat < UInt64.size then some n.toNat else none
  | none => none

def int32Role : OptionRole := .value fun s => (int32? s).isSome

def countRole : OptionRole := .value fun s => (count? s).isSome

/-- A path has at least one character. -/
def pathRole : OptionRole := .value fun s => !s.isEmpty

def programOptions : List OptionSpec :=
  [⟨"data-dir", some 'D', pathRole⟩, ⟨"page-size", none, countRole⟩,
    ⟨"pool-pages", some 'p', countRole⟩, ⟨"debug", some 'd', .flag⟩, .help, .version]

def loadOptions : List OptionSpec := [⟨"rows", some 'r', int32Role⟩, .help]

def scanOptions : List OptionSpec := [.help]

def statsOptions : List OptionSpec :=
  [⟨"below", some 'b', int32Role⟩, ⟨"buckets", none, countRole⟩, .help]

/-! ## Reading -/

/-- Help asked for among a command's options is help on the command. -/
def onCommand (name : String) : Refused → Refused
  | .help none => .help (some name)
  | refused => refused

/-- What was given to a command: its options and its one operand, the table. -/
def readOptions (name : String) (specs : List OptionSpec) (args : List String) :
    Except Refused (Given × String) :=
  match readArguments specs 1 .nothing args with
  | .error refused => .error (onCommand name refused)
  | .ok given =>
      match given.operands with
      | table :: _ => .ok (given, table)
      | [] => .error .usage

/-- The command on which help is asked for. -/
def readTopic : List String → Refused
  | [] => .help none
  | [name] =>
      if ["load", "scan", "stats", "help"].contains name then .help (some name) else .usage
  | _ => .usage

def readCommand (name : String) (args : List String) : Except Refused Command := do
  match name with
  | "load" =>
      let (given, table) ← readOptions name loadOptions args
      let rows? := (given.value? "rows").bind int32?
      return .load table ((rows?.map Int32.ofInt).getD defaultRows)
  | "scan" =>
      let (_, table) ← readOptions name scanOptions args
      return .scan table
  | "stats" =>
      let (given, table) ← readOptions name statsOptions args
      let below? := (given.value? "below").bind int32?
      let buckets? := (given.value? "buckets").bind count?
      return .stats table (below?.map Int32.ofInt) (buckets?.getD defaultBuckets)
  | "help" => .error (readTopic args)
  | _ => .error .usage

def readInvocation (args : List String) : Except Refused Invocation := do
  let (unsettled, name, rest) ← readUpToCommand programOptions .nothing args
  let command ← readCommand name rest
  let given ← unsettled.settle
  return {
    settings :=
      ⟨(given.value? "data-dir").getD defaultDirectory,
        ((given.value? "page-size").bind count?).getD Settings.defaultPageSize,
        ((given.value? "pool-pages").bind count?).getD Settings.defaultPoolPages⟩
    debug := given.has "debug"
    command }

end CommandLine

end RowStore
