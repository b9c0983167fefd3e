/-
# RowStore.CommandLine.Arguments -- options, values and operands

An argument that begins with two dashes names a long option, one that begins with a
single dash is a row of short options, and every other argument is an operand.  An
option that takes a value takes it after an equals sign, directly after its letter,
or from the next argument unless that looks like an option itself.  After a bare
double dash every argument is an operand.

Arguments are read from left to right, and the first one that ends the reading
decides how it ends.  Help and the version are among those, so what stands before
them has to be in order and what follows them is not looked at.  A value that stands
in an argument of its own is checked when the reading goes on (`Given.settle`).
-/

namespace RowStore

set_option autoImplicit false

namespace CommandLine

/-- How an invocation ends when it does not run a command. -/
inductive Refused where
  /-- The arguments are not understood. -/
  | usage
  /-- Help was asked for, on the program or on one of its commands. -/
  | help (command? : Option String)
  | version
deriving DecidableEq, Repr

/-- What giving an option amounts to. -/
inductive OptionRole where
  | flag
  /-- The option sets a value, which has to be acceptable. -/
  | value (accepts : String → Bool)
  | help
  | version

/-- An option of a command. -/
structure OptionSpec where
  long : String
  short? : Option Char
  role : OptionRole

namespace OptionSpec

def help : OptionSpec := ⟨"help", some 'h', .help⟩

def version : OptionSpec := ⟨"version", some 'V', .version⟩

def takesValue (spec : OptionSpec) : Bool :=
  match spec.role with
  | .value _ => true
  | .flag | .help | .version => false

def accepts (spec : OptionSpec) (value : String) : Bool :=
  match spec.role with
  | .value accepts => accepts value
  | .flag | .help | .version => true

end OptionSpec

/-- What was given so far. -/
structure Given where
  /-- The options by their long names, each with its value. -/
  options : List (String × String)
  operands : List String
  /-- An option that stood alone, and the argument that followed it as its value. -/
  unsettled? : Option (OptionSpec × Option String)

namespace Given

def nothing : Given := ⟨[], [], none⟩

def has (g : Given) (long : String) : Bool := g.options.any fun o => o.1 = long

def value? (g : Given) (long : String) : Option String :=
  (g.options.find? fun o => o.1 = long).map Prod.snd

/-- Whether an option stood alone and its value is still to come. -/
def awaitsValue (g : Given) : Bool :=
  match g.unsettled? with
  | some (_, none) => true
  | _ => false

/-- Note an option, which can be given only once. -/
def note (g : Given) (spec : OptionSpec) (value : String) : Except Refused Given :=
  if g.has spec.long || !spec.accepts value then .error .usage
  else .ok { g with options := g.options ++ [(spec.long, value)] }

/-- Note the option that stood alone. -/
def settle (g : Given) : Except Refused Given :=
  match g.unsettled? with
  | none => .ok g
  | some (_, none) => .error .usage
  | some (spec, some value) => note { g with unsettled? := none } spec value

/-- Give an option together with its value. -/
def giveValue (g : Given) (spec : OptionSpec) (value : String) : Except Refused Given := do
  (← g.settle).note spec value

/-- Give an option alone. -/
def giveAlone (g : Given) (spec : OptionSpec) : Except Refused Given := do
  let settled ← g.settle
  match spec.role with
  | .flag => settled.note spec ""
  | .value _ => .ok { settled with unsettled? := some (spec, none) }
  | .help => .error (.help none)
  | .version => .error .version

/-- Take an operand, of which there may be at most `limit`. -/
def giveOperand (g : Given) (limit : Nat) (operand : String) : Except Refused Given := do
  let settled ← g.settle
  if settled.operands.length < limit then
    .ok { settled with operands := settled.operands ++ [operand] }
  else .error .usage

/-- Take the value that the option before it awaits. -/
def takeValue (g : Given) (value : String) : Given :=
  { g with unsettled? := g.unsettled?.map fun u => (u.1, some value) }

end Given

/-! ## Single arguments -/

/-- Whether an argument would be taken for an option. -/
def looksLikeOption (arg : String) : Bool := arg.startsWith "-" && arg != "-"

/-- Read what follows the two dashes of a long option. -/
def readLong (specs : List OptionSpec) (g : Given) (body : List Char) : Except Refused Given :=
  let name := String.ofList (body.takeWhile (· ≠ '='))
  match specs.find? (fun s => s.long = name), body.dropWhile (· ≠ '=') with
  | none, _ => .error .usage
  | some spec, [] => g.giveAlone spec
  | some spec, _ :: value =>
      if spec.takesValue then g.giveValue spec (String.ofList value) else .error .usage

/-- Read what follows the dash of short options.  The first one that takes a value has
the rest of the argument as its value. -/
def readShorts (specs : List OptionSpec) (g : Given) : List Char → Except Refused Given
  | [] => .ok g
  | c :: rest =>
      match specs.find? (fun s => s.short? = some c) with
      | none => .error .usage
      | some spec =>
          if spec.takesValue then
            match rest with
            | [] => g.giveAlone spec
            | '=' :: value => g.giveValue spec (String.ofList value)
            | value => g.giveValue spec (String.ofList value)
          else
            match g.giveAlone spec with
            | .error refused => .error refused
            | .ok after => readShorts specs after rest

/-- Read one argument, where at most `limit` operands are allowed. -/
def readArgument (specs : List OptionSpec) (limit : Nat) (g : Given) (arg : String) :
    Except Refused Given :=
  if looksLikeOption arg then
    match arg.toList with
    | '-' :: '-' :: body => readLong specs g body
    | body => readShorts specs g (body.drop 1)
  else if g.awaitsValue then .ok (g.takeValue arg)
  else g.giveOperand limit arg

/-! ## All arguments -/

/-- Read the arguments of a command that has at most `limit` operands. -/
def readArguments (specs : List OptionSpec) (limit : Nat) :
    Given → List String → Except Refused Given
  | g, [] => g.settle
  | g, arg :: rest =>
      if arg = "--" then do
        rest.foldlM (fun given operand => given.giveOperand limit operand) (← g.settle)
      else
        match readArgument specs limit g arg with
        | .error refused => .error refused
        | .ok after => readArguments specs limit after rest

/-- Read options up to the first operand, which names a command.  The answer is what was
given, the name and the arguments after it. -/
def readUpToCommand (specs : List OptionSpec) :
    Given → List String → Except Refused (Given × String × List String)
  | _, [] => .error .usage
  | g, arg :: rest =>
      if arg = "--" then .error .usage
      else if g.awaitsValue || looksLikeOption arg then
        match readArgument specs 0 g arg with
        | .error refused => .error refused
        | .ok after => readUpToCommand specs after rest
      else .ok (g, arg, rest)

/-! ## Numbers -/

/-- A whole number in decimal digits, with a sign if `signed` allows a minus. -/
def wholeNumber? (signed : Bool) (s : String) : Option Int :=
  let digits? (cs : List Char) : Option Nat :=
    if cs.isEmpty || !cs.all Char.isDigit then none
    else some (cs.foldl (fun n c => n * 10 + (c.toNat - '0'.toNat)) 0)
  match s.toList with
  | '+' :: cs => (digits? cs).map Int.ofNat
  | '-' :: cs => if signed then (digits? cs).map fun n => -Int.ofNat n else none
  | cs => (digits? cs).map Int.ofNat

end CommandLine

end RowStore
