import CellMachine.Text.Decimal
import CellMachine.Text.Numeral

/-! # Positions and diagnostics

A position in a program text counts bytes from zero and lines and columns from one, a column being
one symbol. Positions are those of prefixes of the text: the position of a symbol is what stands
before it. A diagnostic is a complaint about the text at a position.
-/

namespace CellMachine.Source

open Text

structure Position where
  offset : Nat := 0
  line : Nat := 1
  column : Nat := 1
  deriving DecidableEq, Repr

namespace Position

def advance (p : Position) (s : Symbol) : Position :=
  if s.is '\n' then ⟨p.offset + s.width, p.line + 1, 1⟩
  else ⟨p.offset + s.width, p.line, p.column + 1⟩

def advanceAll (p : Position) (symbols : List Symbol) : Position :=
  symbols.foldl advance p

end Position

inductive Complaint where
  /-- The text could not be read because its name is that of a directory. -/
  | directory (name : String)
  | nul
  | invalidEncoding
  | noDigits (radix : Radix)
  | invalidDigit (digit : Symbol) (radix : Radix)
  | misplacedSeparator
  | emptyProgram
  | expectedInteger (found : List Symbol)
  | invalidInteger (text : List Symbol)
  | expectedComma (found : List Symbol)
  | unexpectedEnd
  deriving DecidableEq, Repr

namespace Complaint

def message : Complaint → String
  | directory name => "read " ++ name ++ ": is a directory"
  | nul => "invalid character NUL"
  | invalidEncoding => "invalid UTF-8 encoding"
  | noDigits radix => radix.name ++ " literal has no digits"
  | invalidDigit digit radix =>
    "invalid digit " ++ Quoted.char digit.shown ++ " in " ++ radix.name ++ " literal"
  | misplacedSeparator => "'_' must separate successive digits"
  | emptyProgram => "empty program"
  | expectedInteger found => "expected integer, got " ++ Quoted.symbols found
  | invalidInteger text => "invalid integer " ++ Symbol.toText text
  | expectedComma found => "expected ',', got " ++ Quoted.symbols found
  | unexpectedEnd => "unexpected end of program after ','"

end Complaint

/-- A complaint about the text of the given name, at a position. -/
structure Diagnostic where
  file : String
  position : Position
  complaint : Complaint
  deriving DecidableEq, Repr

namespace Diagnostic

/-- The place of a diagnostic; a text without name is shown as `<input>`. -/
def place (d : Diagnostic) : String :=
  (if d.file.isEmpty then "<input>" else d.file) ++ ":" ++ countText d.position.line ++ ":" ++
    countText d.position.column

def text (d : Diagnostic) : String :=
  d.place ++ ": " ++ d.complaint.message

end Diagnostic

end CellMachine.Source
