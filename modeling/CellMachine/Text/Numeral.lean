import CellMachine.Cell
import CellMachine.Text.Quoted

/-! # Reading numbers

Two forms of numbers are read. A *decimal* is an optional sign and decimal digits. A *literal*,
the form of command line arguments, may also carry a base in front of its digits (`0x`, `0o`,
`0b`, or a bare leading zero for base eight) and separators `_` between digits.

Both are read from left to right: a magnitude that no longer fits in 64 bits is out of range,
whatever follows it, and a symbol that is not a digit makes the text malformed. The sign is
applied last, so the least cell is read like any other.
-/

namespace CellMachine.Text

inductive Radix where
  | binary
  | octal
  | decimal
  | hexadecimal
  deriving DecidableEq, Repr

namespace Radix

def base : Radix → Nat
  | binary => 2
  | octal => 8
  | decimal => 10
  | hexadecimal => 16

def name : Radix → String
  | binary => "binary"
  | octal => "octal"
  | decimal => "decimal"
  | hexadecimal => "hexadecimal"

/-- The base announced by the letter that follows a leading zero. -/
def ofLetter? : Symbol → Option Radix
  | .char 'b' | .char 'B' => some binary
  | .char 'o' | .char 'O' => some octal
  | .char 'x' | .char 'X' => some hexadecimal
  | _ => none

end Radix

namespace Symbol

/-- The value of a hexadecimal digit, letters of either case included. -/
def digit? : Symbol → Option Nat
  | char c =>
    if '0' ≤ c ∧ c ≤ '9' then some (c.toNat - '0'.toNat)
    else if 'a' ≤ c ∧ c ≤ 'f' then some (c.toNat - 'a'.toNat + 10)
    else if 'A' ≤ c ∧ c ≤ 'F' then some (c.toNat - 'A'.toNat + 10)
    else none
  | bad _ => none

def digitIn? (radix : Radix) (s : Symbol) : Option Nat :=
  match s.digit? with
  | some d => if d < radix.base then some d else none
  | none => none

def isDecimal (s : Symbol) : Bool :=
  (s.digitIn? .decimal).isSome

def isHexadecimal (s : Symbol) : Bool :=
  s.digit?.isSome

def isSeparator (s : Symbol) : Bool :=
  s.is '_'

end Symbol

namespace Numeral

/-- Why a text is not a number of 64 bits. -/
inductive Problem where
  | malformed
  | outOfRange
  deriving DecidableEq, Repr

def Problem.message : Problem → String
  | malformed => "invalid syntax"
  | outOfRange => "value out of range"

/-- The full report of a problem, which quotes the text that is not a number. -/
def Problem.report (problem : Problem) (text : List Symbol) : String :=
  "strconv.ParseInt: parsing " ++ Quoted.symbols text ++ ": " ++ problem.message

/-- The least magnitude that does not fit in 64 bits. -/
def limit : Nat :=
  18446744073709551616

/-- The number read so far, continued over the remaining digits. Separators are passed over when
they are allowed. -/
def magnitude (radix : Radix) (separators : Bool) : Nat → List Symbol → Except Problem Nat
  | value, [] => .ok value
  | value, s :: rest =>
    if separators && s.isSeparator then magnitude radix separators value rest
    else match s.digitIn? radix with
      | none => .error .malformed
      | some d =>
        if value * radix.base + d < limit then
          magnitude radix separators (value * radix.base + d) rest
        else .error .outOfRange

/-- Splits an optional sign off a text; the flag tells whether it is a minus. -/
def splitSign : List Symbol → Bool × List Symbol
  | .char '-' :: rest => (true, rest)
  | .char '+' :: rest => (false, rest)
  | text => (false, text)

def signed (negative : Bool) (n : Nat) : Except Problem Cell :=
  match Cell.ofInt? (if negative then -(n : Int) else n) with
  | some c => .ok c
  | none => .error .outOfRange

/-- Reads a decimal: an optional sign and at least one decimal digit. -/
def decimal (text : List Symbol) : Except Problem Cell :=
  match splitSign text with
  | (_, []) => .error .malformed
  | (negative, digits) => do
    let n ← magnitude .decimal false 0 digits
    signed negative n

/-- Whether every separator has a digit on both sides; `afterDigit` tells whether a digit, or a
base, stands right before the list. -/
def separatorsFit : (afterDigit : Bool) → List Symbol → Bool
  | _, [] => true
  | afterDigit, s :: rest =>
    if s.isSeparator then
      afterDigit && (match rest with
        | [] => false
        | next :: _ => !next.isSeparator) && separatorsFit false rest
    else separatorsFit true rest

/-- Whether the separators of a numeral without sign are well placed, a base counting as a digit. -/
def wellSeparated : List Symbol → Bool
  | .char '0' :: letter :: rest =>
    match Radix.ofLetter? letter with
    | some _ => separatorsFit true rest
    | none => separatorsFit true (letter :: rest)
  | text => separatorsFit false text

/-- Splits the base off an unsigned literal. A base letter counts only when something follows it. -/
def splitRadix : List Symbol → Radix × List Symbol
  | .char '0' :: letter :: next :: rest =>
    match Radix.ofLetter? letter with
    | some radix => (radix, next :: rest)
    | none => (.octal, letter :: next :: rest)
  | .char '0' :: rest => (.octal, rest)
  | text => (.decimal, text)

/-- Reads a literal: an optional sign, an optional base, and digits with separators in between. -/
def literal (text : List Symbol) : Except Problem Cell :=
  match splitSign text with
  | (_, []) => .error .malformed
  | (negative, unsigned) => do
    let (radix, digits) := splitRadix unsigned
    let n ← magnitude radix true 0 digits
    if wellSeparated unsigned then signed negative n else .error .malformed

end Numeral

end CellMachine.Text
