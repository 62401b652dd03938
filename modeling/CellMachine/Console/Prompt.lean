import CellMachine.Failure
import CellMachine.Text.Blank

/-! # Asking for values

Values can be asked for one line at a time. Each line that is read is prompted for, and a line
counts without the blanks around it. A line that is not a number is answered with a complaint and
the next one is read; what stands behind the last line feed counts as a line when it is not blank,
and when it is blank there is nothing left to read.
-/

namespace CellMachine.Console

open Text

/-- A text cut at its line feeds: the lines that end with one, and the rest. -/
structure Lines where
  terminated : List (List Symbol) := []
  rest : List Symbol := []
  deriving DecidableEq, Repr

namespace Lines

def cons (s : Symbol) (l : Lines) : Lines :=
  if s.is '\n' then { l with terminated := [] :: l.terminated }
  else match l.terminated with
    | line :: more => { l with terminated := (s :: line) :: more }
    | [] => { l with rest := s :: l.rest }

def ofText (text : List Symbol) : Lines :=
  text.foldr cons {}

end Lines

/-- What is shown before a line is read. -/
def promptText : String :=
  "input: "

/-- What is shown after a line that is not a number. -/
def complaintText (line : List Symbol) : String :=
  "invalid input " ++ Quoted.symbols line ++ "\n"

/-- The answer to a question: a value or a failure, what was shown, and the lines left to read. -/
structure Answer where
  value : Except Failure Cell
  shown : String
  lines : Lines

/-- Asks for a value when only the unterminated rest of the text is left. -/
def askRest (rest : List Symbol) : Answer :=
  let line := Symbol.trim rest
  let value :=
    if line.isEmpty then .error (Cause.inputExhausted.within .endOfInput)
    else match Numeral.decimal line with
      | .ok value => .ok value
      | .error problem => .error ((Cause.notANumber line problem).within (.inputLine line))
  { value, shown := promptText, lines := {} }

/-- Asks for a value, reading terminated lines until one is a number. -/
def askLines : List (List Symbol) → (rest : List Symbol) → Answer
  | [], rest => askRest rest
  | line :: more, rest =>
    let line := Symbol.trim line
    match Numeral.decimal line with
    | .ok value => { value := .ok value, shown := promptText, lines := ⟨more, rest⟩ }
    | .error _ =>
      let answer := askLines more rest
      { answer with shown := promptText ++ complaintText line ++ answer.shown }

def ask (lines : Lines) : Answer :=
  askLines lines.terminated lines.rest

/-- Someone who is asked for values, and all that has been shown to them. -/
structure Respondent where
  lines : Lines
  shown : String := ""

namespace Respondent

def ofText (text : List Symbol) : Respondent :=
  { lines := .ofText text }

def ask (r : Respondent) : Except Failure Cell × Respondent :=
  let answer := Console.ask r.lines
  (answer.value, { lines := answer.lines, shown := r.shown ++ answer.shown })

end Respondent

end CellMachine.Console
