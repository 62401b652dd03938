import CellMachine.Source.Position

/-! # Tokens of program texts

A program text is cut into tokens: a numeral is a maximal run of digits, with a base and
separators where they are understood, and every other symbol is a token of its own. Layout (tab,
line feed, carriage return and space) separates tokens, a byte order mark at the very start is
passed over, and the end of the text is a token too.

The text is read one symbol ahead. A symbol that no program text may contain is therefore reported
when it is reached: at its own position when nothing or layout stands before it, and otherwise at
the start of the token before it. The faults of a token are listed in the order in which they are
found.
-/

namespace CellMachine.Source

open Text

structure Fault where
  position : Position
  complaint : Complaint
  deriving DecidableEq, Repr

inductive Token.Kind where
  | numeral
  | mark
  | stop
  deriving DecidableEq, Repr

/-- A piece of a program text, with the faults found while it was cut out. -/
structure Token where
  kind : Token.Kind
  text : List Symbol
  position : Position
  faults : List Fault
  deriving DecidableEq, Repr

namespace Token

/-- Symbols that only separate tokens. -/
def isLayout (s : Symbol) : Bool :=
  s.is '\t' || s.is '\n' || s.is '\r' || s.is ' '

/-- The complaint about a symbol that no program text may contain. -/
def forbidden? : Symbol → Option Complaint
  | .char c => if c.toNat = 0 then some .nul else none
  | .bad _ => some .invalidEncoding

/-- The fault reported at `position` when the text goes on with `rest`. -/
def lookAhead (position : Position) : List Symbol → List Fault
  | [] => []
  | s :: _ => (forbidden? s).toList.map (⟨position, ·⟩)

/-- The symbols that continue a numeral of the given base. Bases up to ten take all decimal digits,
so that a digit too large is a fault of the numeral and not a token of its own. -/
def continues (radix : Radix) (s : Symbol) : Bool :=
  s.isSeparator || if radix = .hexadecimal then s.isHexadecimal else s.isDecimal

/-- The number of symbols of `rest` that belong to the token starting with `s`. -/
def tailLength (s : Symbol) (rest : List Symbol) : Nat :=
  if s.is '0' then
    match rest with
    | [] => 0
    | letter :: digits =>
      match Radix.ofLetter? letter with
      | some radix => 1 + (digits.takeWhile (continues radix)).length
      | none => (rest.takeWhile (continues .octal)).length
  else if s.isDecimal then (rest.takeWhile (continues .decimal)).length
  else 0

/-- The base of a numeral, whether a digit stands in front of it as a base, and what follows. -/
def numeralParts : List Symbol → Radix × Bool × List Symbol
  | .char '0' :: letter :: digits =>
    match Radix.ofLetter? letter with
    | some radix => (radix, false, digits)
    | none => (.octal, true, letter :: digits)
  | [.char '0'] => (.octal, true, [])
  | digits => (.decimal, false, digits)

/-- What is wrong with the spelling of a numeral: no digit at all, the first digit too large for its
base, and separators that are not between digits. -/
def numeralComplaints (text : List Symbol) : List Complaint :=
  let (radix, hasZero, digits) := numeralParts text
  let missing :=
    if hasZero || digits.any (!·.isSeparator) then [] else [.noDigits radix]
  let tooLarge :=
    match digits.find? fun s => !s.isSeparator && (s.digitIn? radix).isNone with
    | some digit => [.invalidDigit digit radix]
    | none => []
  let misplaced := if Numeral.wellSeparated text then [] else [.misplacedSeparator]
  missing ++ tooLarge ++ misplaced

/-- The token that starts with `s` at `position` and goes on in `rest`, found after `before`. -/
def cut (position : Position) (before : List Fault) (s : Symbol) (rest : List Symbol) : Token :=
  let n := tailLength s rest
  let text := s :: rest.take n
  let ahead := lookAhead position (rest.drop n)
  if s.isDecimal then
    { kind := .numeral, text, position
      faults := before ++ ahead ++ (numeralComplaints text).map (⟨position, ·⟩) }
  else { kind := .mark, text, position, faults := before ++ ahead }

/-- The tokens of a text that starts at `position`, where `before` are faults found already. -/
def scanFrom (position : Position) (before : List Fault) (text : List Symbol) : List Token :=
  let layout := text.takeWhile isLayout
  let start := position.advanceAll layout
  match _cut : text.dropWhile isLayout with
  | [] => [{ kind := .stop, text := [], position := start, faults := before }]
  | s :: rest =>
    let before := if layout.isEmpty then before else before ++ lookAhead start (s :: rest)
    let token := cut start before s rest
    token :: scanFrom (start.advanceAll token.text) [] (rest.drop (tailLength s rest))
termination_by text.length
decreasing_by
  have dropped : (text.dropWhile isLayout).length ≤ text.length :=
    (List.dropWhile_suffix isLayout).length_le
  rw [_cut] at dropped
  simp only [List.length_cons] at dropped
  simp only [List.length_drop]
  omega

def scan : List Symbol → List Token
  | .char '\ufeff' :: rest =>
    let start := Position.advance {} (.char '\ufeff')
    scanFrom start (lookAhead start rest) rest
  | text => scanFrom {} (lookAhead {} text) text

end Token

end CellMachine.Source
