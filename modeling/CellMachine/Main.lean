import CellMachine.Console.Perform

/-! # The command line program

The program reads the file that its arguments name, performs the request and writes what it leads
to.
-/

namespace CellMachine.Console

/-- What stands under a name. The system answers the attempt to read a directory with code 21 and
refuses a name with a bad character with code 22. -/
def readProgramFile (name : String) : IO Source.File := do
  try
    return .text (← IO.FS.readBinFile name).toList
  catch
    | .noFileOrDirectory .. => return .unopened .missing
    | .inappropriateType _ 21 _ => return .directory
    | .invalidArgument _ 22 _ => return .unopened .invalidName
    | .invalidArgument .. => return .unopened .nameTooLong
    | .permissionDenied .. => return .unopened .denied
    | _ => return .unopened .notDirectory

/-- The instructions allowed to a run, more than can be carried out in a lifetime. -/
def runBudget : Nat :=
  4611686018427387904

end CellMachine.Console

open CellMachine.Console

/-- Performs what the arguments ask for; the exit status 3 stands for a run without end. -/
def main (arguments : List String) : IO UInt32 := do
  let request := Request.ofArguments arguments
  let file ← match request.file? with
    | some name => readProgramFile name
    | none => pure (.unopened .missing)
  match request.perform runBudget "(unknown version)" fun _ => file with
  | none => return 3
  | some effect =>
    (← IO.getStdout).putStr effect.stdout
    (← IO.getStderr).putStr effect.stderr
    return effect.exit.toUInt32
