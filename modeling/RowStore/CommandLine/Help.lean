/-
# RowStore.CommandLine.Help -- what the program says about itself
-/
import RowStore.CommandLine.Invocation

namespace RowStore

set_option autoImplicit false

namespace CommandLine

def versionLine : String := "heapdb 0.1.0"

def programHelp : List String :=
  ["heapdb - a transactional heap-file store",
    "",
    "Usage: heapdb [OPTIONS] <COMMAND>",
    "",
    "Commands:",
    "  load   Create a table of (id INT, name VARCHAR) rows and fill it",
    "  scan   Print every row of a table",
    "  stats  Page and row counts plus an id histogram",
    "  help   Print this message or the help of the given subcommand(s)",
    "",
    "Options:",
    "  -D, --data-dir <DATA_DIR>      Data directory [default: ./heapdb_data]",
    "      --page-size <PAGE_SIZE>    Page size in bytes [default: 4096]",
    "  -p, --pool-pages <POOL_PAGES>  Buffer pool capacity in pages [default: 50]",
    "  -d, --debug                    Enable debug logging",
    "  -h, --help                     Print help",
    "  -V, --version                  Print version"]

def loadHelp : List String :=
  ["Create a table of (id INT, name VARCHAR) rows and fill it",
    "",
    "Usage: heapdb load [OPTIONS] <TABLE>",
    "",
    "Arguments:",
    "  <TABLE>  ",
    "",
    "Options:",
    "  -r, --rows <ROWS>  Number of rows to insert [default: 1000]",
    "  -h, --help         Print help"]

def scanHelp : List String :=
  ["Print every row of a table",
    "",
    "Usage: heapdb scan <TABLE>",
    "",
    "Arguments:",
    "  <TABLE>  ",
    "",
    "Options:",
    "  -h, --help  Print help"]

def statsHelp : List String :=
  ["Page and row counts plus an id histogram",
    "",
    "Usage: heapdb stats [OPTIONS] <TABLE>",
    "",
    "Arguments:",
    "  <TABLE>  ",
    "",
    "Options:",
    "  -b, --below <BELOW>      Estimate the selectivity of `id < below`",
    "      --buckets <BUCKETS>  [default: 10]",
    "  -h, --help               Print help"]

def helpHelp : List String :=
  ["Print this message or the help of the given subcommand(s)",
    "",
    "Usage: heapdb help [COMMAND]...",
    "",
    "Arguments:",
    "  [COMMAND]...  Print help for the subcommand(s)"]

/-- The help on the program or on one of its commands. -/
def helpLines : Option String → List String
  | some "load" => loadHelp
  | some "scan" => scanHelp
  | some "stats" => statsHelp
  | some "help" => helpHelp
  | _ => programHelp

namespace Refused

/-- Only arguments that are not understood make a failure. -/
def code : Refused → Nat
  | .usage => 2
  | .help _ | .version => 0

/-- The lines of output. -/
def lines : Refused → List String
  | .usage => []
  | .help command => helpLines command
  | .version => [versionLine]

def complaint : Refused → String
  | .usage => "error: the arguments are not understood\n\nFor more information, try '--help'.\n"
  | .help _ | .version => ""

end Refused

end CommandLine

end RowStore
