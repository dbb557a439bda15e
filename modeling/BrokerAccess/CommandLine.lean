/-!
# Command lines

A command line is a list of options, some with a value. A value stands in the same
argument, with or without an equals sign, or in the next one, where it must not look like
an option. Options without a value may share one argument by their short names. No
option may be given twice, and nothing but options is accepted. Arguments are read from
the first to the last, values included, and the first fault or call for help decides.
-/

namespace BrokerAccess.CommandLine

/-- An option that a program accepts. -/
structure OptionSpec where
  /-- The long name, written after two dashes. -/
  name : String
  /-- The short name, written after one dash. -/
  short : Option Char := none
  /-- The values that the option accepts, if it has one. -/
  accepts : Option (String → Bool) := none

/-- Why a program does not run on a command line. -/
inductive Halt where
  /-- Help was asked for. -/
  | help
  /-- The command line is not one of the program's. -/
  | usage
  deriving DecidableEq, Repr

/-- The exit code of a program that does not run. -/
def Halt.code : Halt → Nat
  | .help => 0
  | .usage => 2

/-- The options of a command line, each with its value. -/
abbrev Given := List (String × String)

/-- The option that asks for help. -/
def helpSpec : OptionSpec := { name := "help", short := some 'h' }

/-- A further option. Asking for help ends the reading. -/
def add (given : Given) (spec : OptionSpec) (value : String) : Except Halt Given :=
  if spec.name = helpSpec.name then .error .help
  else if (given.lookup spec.name).isSome then .error .usage
  else if spec.accepts.all fun accepts => accepts value then .ok (given ++ [(spec.name, value)])
  else .error .usage

/-- An argument can be the value of the option before it. -/
def isValue (argument : String) : Bool := argument.toList.head? ≠ some '-' || argument = "-"

/-- What an argument leaves to be read: nothing, or the value of an option. -/
abbrev Pending := Option OptionSpec

/-- The short options of one argument. The first with a value takes the rest of it. -/
def readCluster (specs : List OptionSpec) (given : Given) :
    List Char → Except Halt (Given × Pending)
  | [] => .ok (given, none)
  | c :: rest =>
    match specs.find? fun s => s.short = some c with
    | none => .error .usage
    | some spec =>
      if spec.accepts.isSome then
        match rest with
        | [] => .ok (given, some spec)
        | '=' :: value => (add given spec (String.ofList value)).map (·, none)
        | value => (add given spec (String.ofList value)).map (·, none)
      else
        match add given spec "" with
        | .error halt => .error halt
        | .ok given => readCluster specs given rest

/-- One long option, after its dashes. -/
def readLong (specs : List OptionSpec) (given : Given) (argument : List Char) :
    Except Halt (Given × Pending) :=
  let name := argument.takeWhile (· ≠ '=')
  match specs.find? fun s => s.name.toList = name with
  | none => .error .usage
  | some spec =>
    match argument.dropWhile (· ≠ '=') with
    | _ :: value =>
      if spec.accepts.isSome then (add given spec (String.ofList value)).map (·, none)
      else .error .usage
    | [] =>
      if spec.accepts.isSome then .ok (given, some spec) else (add given spec "").map (·, none)

/-- The options of the arguments that are left, when `pending` still wants its value. -/
def readFrom (specs : List OptionSpec) : Given → Pending → List String → Except Halt Given
  | given, none, [] => .ok given
  | _, some _, [] => .error .usage
  | given, some spec, argument :: rest =>
    if isValue argument then
      match add given spec argument with
      | .error halt => .error halt
      | .ok given => readFrom specs given none rest
    else .error .usage
  | given, none, argument :: rest =>
    match argument.toList with
    | ['-', '-'] => if rest.isEmpty then .ok given else .error .usage
    | '-' :: '-' :: long =>
      match readLong specs given long with
      | .error halt => .error halt
      | .ok (given, pending) => readFrom specs given pending rest
    | '-' :: c :: cluster =>
      match readCluster specs given (c :: cluster) with
      | .error halt => .error halt
      | .ok (given, pending) => readFrom specs given pending rest
    | _ => .error .usage

/-- The options of a command line. -/
def read (specs : List OptionSpec) (arguments : List String) : Except Halt Given :=
  readFrom (helpSpec :: specs) [] none arguments

end BrokerAccess.CommandLine
