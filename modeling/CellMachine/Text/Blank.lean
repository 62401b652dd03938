import CellMachine.Text.Utf8

/-! # Blank characters

The blanks around an input line are the characters with the Unicode property `White_Space`: the
ASCII controls from tab to carriage return, the space, and the wider spaces of other scripts.
Zero-width characters are not blank.
-/

namespace CellMachine.Text

/-- The characters with the property `White_Space`. -/
def isBlank (c : Char) : Bool :=
  let n := c.toNat
  (0x09 ≤ n && n ≤ 0x0d) || n == 0x20 || n == 0x85 || n == 0xa0 || n == 0x1680 ||
    (0x2000 ≤ n && n ≤ 0x200a) || n == 0x2028 || n == 0x2029 || n == 0x202f || n == 0x205f ||
    n == 0x3000

namespace Symbol

/-- Whether a symbol is a blank character; a bad byte is not. -/
def isBlank : Symbol → Bool
  | char c => Text.isBlank c
  | bad _ => false

/-- A line without the blanks at its two ends. -/
def trim (line : List Symbol) : List Symbol :=
  ((line.dropWhile isBlank).reverse.dropWhile isBlank).reverse

end Symbol

end CellMachine.Text
