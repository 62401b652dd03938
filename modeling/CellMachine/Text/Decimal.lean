import CellMachine.Cell

/-! # Decimal text of numbers

Numbers are written in base ten with the fewest digits and a leading minus sign when negative.
Lists of cells are written between brackets with single spaces in between.
-/

namespace CellMachine.Text.Decimal

/-- The decimal digits of a natural number, most significant first; zero has one digit. -/
def ofNat (n : Nat) : List Char :=
  Nat.toDigits 10 n

/-- The decimal digits of an integer, with a minus sign in front of a negative one. -/
def ofInt (n : Int) : List Char :=
  if n < 0 then '-' :: ofNat n.natAbs else ofNat n.natAbs

def ofCell (c : Cell) : List Char :=
  ofInt c.toInt

end CellMachine.Text.Decimal

namespace CellMachine

def Cell.text (c : Cell) : String :=
  String.ofList (Text.Decimal.ofCell c)

/-- The decimal text of a count or of a position. -/
def countText (n : Nat) : String :=
  String.ofList (Text.Decimal.ofNat n)

/-- A list of cells between brackets, separated by single spaces. -/
def cellsText (cells : List Cell) : String :=
  "[" ++ " ".intercalate (cells.map Cell.text) ++ "]"

end CellMachine
