import CellMachine.Text.Printable
import CellMachine.Text.Utf8

/-! # Quoted text

A quoted text stands between two quotes. Inside, the quote itself and the backslash follow a
backslash, printable characters stand for themselves, and everything else is an escape: a letter
for the common controls, two hexadecimal digits for other ASCII controls and bad bytes, four or
eight for the remaining characters.
-/

namespace CellMachine.Text.Quoted

/-- The lower-case hexadecimal digits of a number, padded with zeros to the given length. -/
def hex : (length n : Nat) → List Char
  | 0, _ => []
  | length + 1, n => hex length (n / 16) ++ [Nat.digitChar (n % 16)]

/-- The letter that names a common control character in an escape. -/
def controlLetter? (c : Char) : Option Char :=
  match c.toNat with
  | 0x07 => some 'a'
  | 0x08 => some 'b'
  | 0x0c => some 'f'
  | 0x0a => some 'n'
  | 0x0d => some 'r'
  | 0x09 => some 't'
  | 0x0b => some 'v'
  | _ => none

/-- A character as it stands inside a text between the given quotes. -/
def escapeChar (quote c : Char) : List Char :=
  if c == quote || c == '\\' then ['\\', c]
  else if isPrintable c then [c]
  else match controlLetter? c with
    | some letter => ['\\', letter]
    | none =>
      if c.toNat < 0x80 then '\\' :: 'x' :: hex 2 c.toNat
      else if c.toNat < 0x10000 then '\\' :: 'u' :: hex 4 c.toNat
      else '\\' :: 'U' :: hex 8 c.toNat

/-- A symbol as it stands inside a text between the given quotes. -/
def escape (quote : Char) : Symbol → List Char
  | .char c => escapeChar quote c
  | .bad byte => '\\' :: 'x' :: hex 2 byte.toNat

/-- A list of symbols between double quotes. -/
def symbols (text : List Symbol) : String :=
  String.ofList ('"' :: text.flatMap (escape '"') ++ ['"'])

/-- A text between double quotes. -/
def text (s : String) : String :=
  symbols (Symbol.ofString s)

/-- A single character between single quotes. -/
def char (c : Char) : String :=
  String.ofList ('\'' :: escapeChar '\'' c ++ ['\''])

end CellMachine.Text.Quoted
