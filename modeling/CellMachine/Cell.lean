/-! # Cells

A cell is the unit of memory, of input and of output: a signed word of 64 bits whose arithmetic
wraps. Addresses, program counters and phase settings are cells too.
-/

namespace CellMachine

/-- A signed 64-bit word; sums and products wrap, quotients are truncated toward zero. -/
abbrev Cell := Int64

namespace Cell

/-- The cell `1` for a true comparison and `0` for a false one. -/
def ofBool (b : Bool) : Cell :=
  if b then 1 else 0

/-- An integer is representable when it lies in the range of signed 64-bit words. -/
def Representable (n : Int) : Prop :=
  -9223372036854775808 ≤ n ∧ n ≤ 9223372036854775807

instance (n : Int) : Decidable (Representable n) :=
  inferInstanceAs (Decidable (_ ∧ _))

/-- The cell with the given value, for representable values only. -/
def ofInt? (n : Int) : Option Cell :=
  if Representable n then some (Int64.ofInt n) else none

end Cell

end CellMachine
