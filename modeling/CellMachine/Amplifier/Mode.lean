/-! # Relay modes

Amplifiers pass signals on in a chain, where each one runs to its end before the next, or with
feedback, where the last one feeds the first.
-/

namespace CellMachine.Amplifier

/-- How amplifiers are joined. A mode without a name relays like feedback. -/
inductive Mode where
  | chain
  | feedback
  | unknown
  deriving DecidableEq, Repr

namespace Mode

def ofNumber (n : Int) : Mode :=
  if n = 0 then chain else if n = 1 then feedback else unknown

def name : Mode → String
  | chain => "chain"
  | feedback => "feedback"
  | unknown => "unknown"

end Mode

end CellMachine.Amplifier
