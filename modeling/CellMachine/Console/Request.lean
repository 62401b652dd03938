import CellMachine.Console.Flag
import CellMachine.Console.Usage

/-! # Requests

A request is what a list of arguments asks for. The command is found first: it is the first
argument that is neither a flag nor the value of one, as far as this can be told before the flags
of the command are known. Its other arguments are then read with its flags.
-/

namespace CellMachine.Console

inductive Request where
  | unknownCommand (name : String)
  | refused (command : Command) (error : FlagError)
  | help (command : Command)
  | usage (command : Command)
  | version
  | run (verbose : Bool) (file : String) (inputs : List Cell) (size : Cell) (dump : Bool)
  | search (verbose : Bool) (file : String) (feedback : Bool) (phases : List Cell) (seed : Cell)
  | patched (verbose : Bool) (file : String) (noun verb : Cell)
  | findMatch (verbose : Bool) (file : String) (target : Cell)
  deriving DecidableEq, Repr

def sharedFlags : Flags :=
  [{ name := "verbose", short := some 'v', value := .switch false },
    { name := "help", short := some 'h', value := .switch false }]

def Command.flags (command : Command) : Flags :=
  sharedFlags ++ match command with
    | .bare => [{ name := "version", value := .switch false }]
    | .run =>
      [{ name := "input", short := some 'i', value := .numbers [] },
        { name := "dump", value := .switch false },
        { name := "size", value := .number 0 }]
    | .search =>
      [{ name := "feedback", value := .switch false },
        { name := "phases", value := .numbers [] },
        { name := "seed", value := .number 0 }]
    | .nounVerb =>
      [{ name := "noun", value := .number 12 },
        { name := "verb", value := .number 2 },
        { name := "target", value := .number 0 }]

namespace Request

/-- Whether an argument looks like a flag that takes the next argument as its value. Before the
command is known only the switches `--verbose`, `--version` and `-v` are known not to. -/
def takesNext (argument : String) : Bool :=
  match argument.toList with
  | '-' :: '-' :: name =>
    !name.contains '=' && name ≠ "verbose".toList && name ≠ "version".toList
  | ['-', c] => c ≠ '=' && c ≠ 'v' && c.toNat < 0x80
  | _ => false

def isDashed (argument : String) : Bool :=
  argument.toList.head? = some '-'

/-- The first argument that may name a command. A flag right before the last argument may as well
take that one, so the search ends there. -/
def candidate? : List String → Option String
  | [] => none
  | argument :: rest =>
    if argument = "--" then none
    else if takesNext argument then
      match rest with
      | _ :: next :: more => candidate? (next :: more)
      | _ => none
    else if argument.isEmpty || isDashed argument then candidate? rest
    else some argument

/-- The arguments without the first one that names the command. -/
def withoutCommand (name : String) : List String → List String
  | [] => []
  | argument :: rest =>
    if argument = "--" then argument :: rest
    else if takesNext argument then
      match rest with
      | value :: more => argument :: value :: withoutCommand name more
      | [] => [argument]
    else if argument = name then rest
    else argument :: withoutCommand name rest

def ofCommand (command : Command) (arguments : List String) : Request :=
  match Arguments.ofList command.flags arguments with
  | .error e => .refused command e
  | .ok { flags, others, .. } =>
    let verbose := flags.isOn "verbose"
    if flags.isOn "help" then .help command
    else match command, others with
      | .bare, _ => if flags.isOn "version" then .version else .usage .bare
      | .run, [file] =>
        .run verbose file (flags.numbers "input") (flags.number "size") (flags.isOn "dump")
      | .search, [file] =>
        .search verbose file (flags.isOn "feedback") (flags.numbers "phases")
          (flags.number "seed")
      | .nounVerb, [file] =>
        if flags.isGiven "target" then .findMatch verbose file (flags.number "target")
        else .patched verbose file (flags.number "noun") (flags.number "verb")
      | _, _ => .usage command

def ofArguments (arguments : List String) : Request :=
  match candidate? arguments with
  | none => ofCommand .bare arguments
  | some name =>
    match Command.ofName? name with
    | some command => ofCommand command (withoutCommand name arguments)
    | none => .unknownCommand name

def file? : Request → Option String
  | run _ file .. | search _ file .. | patched _ file .. | findMatch _ file _ => some file
  | _ => none

end Request

end CellMachine.Console
