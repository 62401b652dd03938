import CellMachine.Amplifier.Mode
import CellMachine.Text.Decimal

/-! # Journals

A journal records what machines, rings and searches report while they work. An entry is a value of
`Event`; its message and its fields are texts derived from it. A journal that is not active records
nothing.
-/

namespace CellMachine

/-- Something worth recording. -/
inductive Event where
  /-- A machine stopped for want of an input value. -/
  | awaitingInput (label : Option String) (pc : Cell) (steps : Nat)
  /-- A machine halted with a number of values that had not been taken. -/
  | halted (label : Option String) (pc : Cell) (steps output : Nat)
  /-- Signals reached an amplifier that had halted. -/
  | signalsDropped (amplifier count : Nat)
  | amplifierHalted (amplifier : Nat) (output : List Cell)
  | newMaximum (signal : Cell) (phases : List Cell)
  | searchDone (mode : Amplifier.Mode) (runs : Nat)
  | programLoaded (file : String) (cells : Nat)
  | programHalted (steps : Nat)
  | matched (noun verb : Cell)
  deriving DecidableEq, Repr

namespace Event

def message : Event → String
  | awaitingInput .. => "awaiting input"
  | halted .. => "halted"
  | signalsDropped .. => "signals sent to halted amplifier"
  | amplifierHalted .. => "amplifier halted"
  | newMaximum .. => "new max signal"
  | searchDone .. => "search done"
  | programLoaded .. => "program loaded"
  | programHalted .. => "program halted"
  | matched .. => "match"

/-- The field that names the machine of an entry, if it has a name. -/
def labelField : Option String → List (String × String)
  | some label => [("vm", label)]
  | none => []

def fields : Event → List (String × String)
  | awaitingInput label pc steps =>
    [("pc", pc.text), ("steps", countText steps)] ++ labelField label
  | halted label pc steps output =>
    [("output", countText output), ("pc", pc.text), ("steps", countText steps)] ++
      labelField label
  | signalsDropped amplifier count =>
    [("amp", countText amplifier), ("dropped", countText count)]
  | amplifierHalted amplifier output =>
    [("amp", countText amplifier), ("output", cellsText output)]
  | newMaximum signal phases => [("phases", cellsText phases), ("signal", signal.text)]
  | searchDone mode runs => [("mode", mode.name), ("runs", countText runs)]
  | programLoaded file cells => [("cells", countText cells), ("file", file)]
  | programHalted steps => [("steps", countText steps)]
  | matched noun verb => [("noun", noun.text), ("verb", verb.text)]

end Event

/-- Where the entries of a machine go, and the label that they carry. -/
structure Journal where
  active : Bool := false
  label : Option String := none
  deriving DecidableEq, Repr

namespace Journal

/-- The entries that a journal keeps. -/
def record (j : Journal) (event : Event) : List Event :=
  if j.active then [event] else []

end Journal

end CellMachine
