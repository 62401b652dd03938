import CellMachine.Journal
import CellMachine.Text.Quoted

/-! # Log lines

A log line holds a level, a message and fields as pairs of a name and a value. Values made of
harmless characters only are written as they are and all others are quoted.
-/

namespace CellMachine.Console

open Text

/-- The characters that need no quotes in a log line. -/
def isHarmless (c : Char) : Bool :=
  c.isAlphanum || c ∈ ['-', '.', '_', '/', '@', '^', '+']

def logValue (value : String) : String :=
  if !value.isEmpty && value.toList.all isHarmless then value else Quoted.text value

def logLine (level message : String) (fields : List (String × String)) : String :=
  let pairs := [("level", level), ("msg", logValue message)] ++
    fields.map fun (name, value) => (name, logValue value)
  " ".intercalate (pairs.map fun (name, value) => name ++ "=" ++ value) ++ "\n"

def eventLine (event : Event) : String :=
  logLine "debug" event.message event.fields

def errorLine (message : String) : String :=
  logLine "error" message []

end CellMachine.Console
