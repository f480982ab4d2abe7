import Cookbook.Text.Given

/-!
# Command-line arguments

Global options come first, then a subcommand, then the options and the
operands of the subcommand in any order.  An option that takes a value finds
it behind an equals sign or in the next argument, and two hyphens end the
options.  Asking for help wins over everything but a malformed option.
-/

namespace Cookbook

/-- What the user wants to be done. -/
inductive Action
  | run (target : Option String) (dryRun : Bool)
  | list
  | plan (target : Option String)
  | check
  deriving DecidableEq

/-- A well-formed command line. -/
structure Request where
  debug : Bool
  file : Option String
  action : Action
  deriving DecidableEq

/-- What a command line asks for. -/
inductive Demand
  | help
  | misuse
  | request (request : Request)
  deriving DecidableEq

namespace Arguments

def isOption (argument : String) : Bool :=
  argument.toList.head? == some '-' && 1 < argument.length

/-- An option split at its first equals sign. -/
def splitOption (argument : String) : String × Option String :=
  let name := argument.toList.takeWhile (· != '=')
  match argument.toList.dropWhile (· != '=') with
  | [] => (argument, none)
  | _ :: value => (String.ofList name, some (String.ofList value))

/-- The options that may stand in front of the subcommand. -/
inductive GlobalOption
  | debug
  | help
  | file (value : String)
  | fileFromNext
  deriving DecidableEq

/-- The global option that an argument is. -/
def globalOption? (argument : String) : Option GlobalOption :=
  match splitOption argument with
  | ("--debug", none) => some .debug
  | ("--help", none) => some .help
  | ("--file", some value) => some (.file value)
  | ("--file", none) => some .fileFromNext
  | _ => none

/-- What the global options say. -/
structure Global where
  debug : Bool
  file : Option String
  help : Bool

/-- Reads the global options; what is left starts with the subcommand. -/
def readGlobal (options : Global) : List String → Option (Global × List String)
  | [] => some (options, [])
  | argument :: rest =>
    if argument = "--" then
      some (options, rest)
    else if isOption argument then
      match globalOption? argument with
      | none => none
      | some .debug => readGlobal { options with debug := true } rest
      | some .help => readGlobal { options with help := true } rest
      | some (.file value) => readGlobal { options with file := some value } rest
      | some .fileFromNext =>
        match rest with
        | [] => none
        | value :: rest => readGlobal { options with file := some value } rest
    else
      some (options, argument :: rest)

/-- The options that may stand behind the subcommand. -/
inductive LocalOption
  | dryRun
  | help
  deriving DecidableEq

/-- The option of a subcommand that an argument is; only some of them know dry runs. -/
def localOption? (knowsDryRun : Bool) (argument : String) : Option LocalOption :=
  match splitOption argument with
  | ("--dry-run", none) => if knowsDryRun then some .dryRun else none
  | ("--help", none) => some .help
  | _ => none

/-- The options and operands behind the subcommand. -/
structure Local where
  dryRun : Bool
  help : Bool
  operands : List String

/-- Reads the arguments of a subcommand. -/
def readLocal (knowsDryRun : Bool) (options : Local) : List String → Option Local
  | [] => some options
  | argument :: rest =>
    if argument = "--" then
      some { options with operands := options.operands ++ rest }
    else if isOption argument then
      match localOption? knowsDryRun argument with
      | none => none
      | some .dryRun => readLocal knowsDryRun { options with dryRun := true } rest
      | some .help => readLocal knowsDryRun { options with help := true } rest
    else
      readLocal knowsDryRun { options with operands := options.operands ++ [argument] } rest

/-- The subcommands. -/
inductive Subcommand
  | run
  | list
  | plan
  | check
  deriving DecidableEq

/-- The subcommand of a name. -/
def subcommand? : String → Option Subcommand
  | "run" => some .run
  | "list" => some .list
  | "plan" => some .plan
  | "check" => some .check
  | _ => none

/-- The action of a subcommand with its options and operands. -/
def action? (options : Local) : Subcommand → Option Action
  | .run =>
    match options.operands with
    | [] => some (.run none options.dryRun)
    | [target] => some (.run (Text.given (some target)) options.dryRun)
    | _ => none
  | .list => if options.operands.isEmpty then some .list else none
  | .plan =>
    match options.operands with
    | [] => some (.plan none)
    | [target] => some (.plan (Text.given (some target)))
    | _ => none
  | .check => if options.operands.isEmpty then some .check else none

/-- What the arguments of a subcommand ask for, under the global options. -/
def readSubcommand (options : Global) (subcommand : Subcommand) (arguments : List String) :
    Demand :=
  match readLocal (subcommand == .run) ⟨false, false, []⟩ arguments with
  | none => .misuse
  | some found =>
    if found.help then
      .help
    else
      match action? found subcommand with
      | none => .misuse
      | some action => .request ⟨options.debug, Text.given options.file, action⟩

/--
What arguments ask for that start with no subcommand where one is expected:
they are read as global options once more, and those may ask for help.
-/
def readUnknown (arguments : List String) : Demand :=
  match readGlobal ⟨false, none, false⟩ arguments with
  | some (⟨_, _, true⟩, _) => .help
  | _ => .misuse

/-- What a command line asks for; without a subcommand the default target is run. -/
def read (arguments : List String) : Demand :=
  match readGlobal ⟨false, none, false⟩ arguments with
  | none => .misuse
  | some (options, rest) =>
    if options.help then
      .help
    else
      match rest with
      | [] => .request ⟨options.debug, Text.given options.file, .run none false⟩
      | name :: rest =>
        match subcommand? name with
        | none => readUnknown (name :: rest)
        | some subcommand => readSubcommand options subcommand rest

end Arguments

end Cookbook
