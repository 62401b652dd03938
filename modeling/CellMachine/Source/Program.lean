import CellMachine.Memory
import CellMachine.Source.Token

/-! # Reading programs

A program text is a list of cells separated by commas. A cell is an optional sign and a numeral,
read in base ten whatever zeros stand in front of it. The reader goes over the whole text: after a
cell that it cannot read it resumes behind the next comma, so that every bad cell is reported. A
text is accepted when nothing at all was reported.
-/

namespace CellMachine.Source

open Text

/-- What a reader expects of the next token. -/
inductive Expectation where
  /-- The first cell of the program. -/
  | program
  /-- A cell, after a comma. -/
  | cell
  /-- The numeral of a cell, after its sign. -/
  | numeral (negative : Bool)
  /-- A comma, after a cell. -/
  | comma
  /-- A comma, after a cell that could not be read. -/
  | resumption
  deriving DecidableEq, Repr

/-- The state of a reader: the cells read so far and what was reported. -/
structure Reading where
  expected : Expectation := .program
  cells : Array Cell := #[]
  faults : Array Fault := #[]

namespace Token

def isMark (t : Token) (c : Char) : Bool :=
  t.kind = .mark && t.text == [.char c]

end Token

namespace Reading

def complain (r : Reading) (t : Token) (complaint : Complaint) : Reading :=
  { r with faults := r.faults.push ⟨t.position, complaint⟩ }

/-- What to expect after a cell that could not be read because of this token. -/
def resumption (t : Token) : Expectation :=
  if t.isMark ',' then .cell else .resumption

def numeral (r : Reading) (negative : Bool) (t : Token) : Reading :=
  if t.kind = .numeral then
    let text := if negative then .char '-' :: t.text else t.text
    match Numeral.decimal text with
    | .ok c => { r with cells := r.cells.push c, expected := .comma }
    | .error _ => { r.complain t (.invalidInteger text) with expected := .resumption }
  else { r.complain t (.expectedInteger t.text) with expected := resumption t }

def cell (r : Reading) (t : Token) : Reading :=
  if t.isMark '-' then { r with expected := .numeral true }
  else if t.isMark '+' then { r with expected := .numeral false }
  else r.numeral false t

/-- Reads one token whose own faults have been reported. -/
def accept (r : Reading) (t : Token) : Reading :=
  match r.expected with
  | .program => if t.kind = .stop then r.complain t .emptyProgram else r.cell t
  | .cell => if t.kind = .stop then r.complain t .unexpectedEnd else r.cell t
  | .numeral negative => r.numeral negative t
  | .comma =>
    if t.kind = .stop then r
    else if t.isMark ',' then { r with expected := .cell }
    else r.complain t (.expectedComma t.text)
  | .resumption => { r with expected := resumption t }

/-- Reports the faults of a token, then reads it. -/
def read (r : Reading) (t : Token) : Reading :=
  { r with faults := r.faults ++ t.faults.toArray }.accept t

end Reading

def reading (text : List UInt8) : Reading :=
  (Token.scan (Utf8.decode text)).foldl Reading.read {}

def faulty (name : String) (faults : List Fault) : Failure :=
  ⟨.faultySource (faults.map fun f => ⟨name, f.position, f.complaint⟩), []⟩

def parse (name : String) (text : List UInt8) : Except Failure Memory :=
  let r := reading text
  if r.faults.isEmpty then .ok ⟨r.cells⟩ else .error (faulty name r.faults.toList)

inductive File where
  | text (bytes : List UInt8)
  | directory
  | unopened (problem : OpenProblem)
  deriving DecidableEq, Repr

/-- Reads a program from a file, into a memory of at least the given size. A directory can be opened
but not read, which leaves no program. -/
def load (name : String) (file : File) (minSize : Cell) : Except Failure Memory :=
  match file with
  | .unopened problem => .error ((Cause.unopened name problem).within .load)
  | .directory => .error (faulty name [⟨{}, .directory name⟩, ⟨{}, .emptyProgram⟩])
  | .text bytes => (parse name bytes).map (·.grow minSize)

end CellMachine.Source
