import CellMachine.Amplifier.Search
import CellMachine.Console.LogLine
import CellMachine.Console.Request
import CellMachine.Console.Session
import CellMachine.Memory.Dump
import CellMachine.Patch
import CellMachine.Source.Program

/-! # Performing requests

A request is performed on the file that it names. Results go to the standard output, journal
entries and errors to the standard error stream; journal entries are shown only to those who ask
for them. The exit status tells a misuse of the command line, a program that cannot be read and a
run that fails apart.
-/

namespace CellMachine.Console

open Text Source

/-- The effect of a request: what is written, and the exit status. -/
structure Effect where
  exit : Nat := 0
  stdout : String := ""
  stderr : String := ""
  deriving DecidableEq, Repr

def exitUsage : Nat := 1

def exitLoad : Nat := 2

def exitRun : Nat := 4

/-- The last element of a path, without the slashes behind it. -/
def baseName (path : String) : String :=
  let trimmed := path.toList.reverse.dropWhile (· = '/')
  if path.isEmpty then "."
  else if trimmed.isEmpty then "/"
  else String.ofList (trimmed.takeWhile (· ≠ '/')).reverse

/-- The lines of journal entries, for those who ask for them. -/
def eventLines (verbose : Bool) (events : List Event) : String :=
  if verbose then String.join (events.map eventLine) else ""

/-- The lines of a failure. In short each fault of a program text has a line of its own; in full the
failure is told from the inside out. -/
def failureLines (verbose : Bool) (f : Failure) : String :=
  if verbose then errorLine f.trace
  else match f with
    | ⟨.faultySource diagnostics, []⟩ =>
      String.join (diagnostics.map fun d => errorLine d.text)
    | _ => errorLine f.message

def cellLine (c : Cell) : String :=
  c.text ++ "\n"

def dumpText (m : Machine) : String :=
  (m.dumpTo Recorder.write {}).2.text

/-- Runs a program and shows its output, also the part put out before a failure. -/
def performRun (budget : Nat) (verbose : Bool) (file : String) (inputs : List Cell) (dump : Bool)
    (program : Memory) (loaded : List Event) : Option Effect :=
  match Computer.build program [.journal verbose, .name (baseName file)] with
  | .error f => some { exit := exitUsage, stderr := failureLines verbose f }
  | .ok computer => do
    let ended ← converse budget computer inputs (none : Option (Prompt Unit)) ()
    let stdout := String.join (ended.output.map cellLine) ++
      if dump then dumpText ended.computer.machine else ""
    match ended.failure with
    | some f =>
      return { exit := exitRun, stdout
               stderr := eventLines verbose (loaded ++ ended.events) ++ failureLines verbose f }
    | none =>
      return { stdout
               stderr := eventLines verbose
                 (loaded ++ ended.events ++ [.programHalted ended.steps]) }

/-- The effect of a job with a single value as its result. -/
def singleEffect (verbose : Bool) (events : List Event) (result : Except Failure Cell) : Effect :=
  match result with
  | .ok value => { stdout := cellLine value, stderr := eventLines verbose events }
  | .error f =>
    { exit := exitRun, stderr := eventLines verbose events ++ failureLines verbose f }

def performSearch (budget : Nat) (verbose feedback : Bool) (phases : List Cell) (seed : Cell)
    (program : Memory) (loaded : List Event) : Option Effect := do
  let mode := if feedback then .feedback else .chain
  let phases := if phases.isEmpty then Amplifier.defaultPhases mode else phases
  let report ← Amplifier.maxSignal budget program phases mode { seed, active := verbose }
  return singleEffect verbose (loaded ++ report.events) (report.result.map (·.signal))

def performPatched (budget : Nat) (verbose : Bool) (noun verb : Cell) (program : Memory)
    (loaded : List Event) : Option Effect := do
  let (result, events) ← patchedResult budget program noun verb [.journal verbose]
  return singleEffect verbose (loaded ++ events) result

def performFindMatch (budget : Nat) (verbose : Bool) (target : Cell) (program : Memory)
    (loaded : List Event) : Option Effect := do
  match ← findNounVerb budget program target [] with
  | .ok (noun, verb) =>
    return singleEffect verbose (loaded ++ [.matched noun verb]) (.ok (100 * noun + verb))
  | .error f => return singleEffect verbose loaded (.error f)

def withProgram (verbose : Bool) (name : String) (file : File) (size : Cell)
    (job : Memory → List Event → Option Effect) : Option Effect :=
  match load name file size with
  | .error f => some { exit := exitLoad, stderr := failureLines verbose f }
  | .ok program => job program [.programLoaded name program.size]

namespace Request

/-- Performs a request of the given version of the program, `files` being what stands under each
name. -/
def perform (budget : Nat) (version : String) (files : String → File) :
    Request → Option Effect
  | .unknownCommand name =>
    some { exit := exitUsage
           stderr := "Error: unknown command " ++ Quoted.text name ++ " for \"intcode\"\n" ++
             "Run 'intcode --help' for usage.\n" }
  | .refused command e =>
    some { exit := exitUsage, stderr := "Error: " ++ e.message ++ "\n" ++ command.usage ++ "\n" }
  | .help command => some { stdout := command.help }
  | .usage command => some { exit := exitUsage, stdout := command.usage ++ "\n" }
  | .version => some { stdout := "intcode " ++ version ++ "\n" }
  | .run verbose file inputs size dump =>
    withProgram verbose file (files file) size (performRun budget verbose file inputs dump)
  | .search verbose file feedback phases seed =>
    withProgram verbose file (files file) 0 (performSearch budget verbose feedback phases seed)
  | .patched verbose file noun verb =>
    withProgram verbose file (files file) 0 (performPatched budget verbose noun verb)
  | .findMatch verbose file target =>
    withProgram verbose file (files file) 0 (performFindMatch budget verbose target)

end Request

/-- Performs what a list of arguments asks for. -/
def command (budget : Nat) (version : String) (files : String → File) (arguments : List String) :
    Option Effect :=
  (Request.ofArguments arguments).perform budget version files

end CellMachine.Console
