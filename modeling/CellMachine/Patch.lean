import CellMachine.Computer

/-! # Patched runs

A program without input is run on a copy of its memory with some cells replaced, and its result is
read off the memory in which it halts. The cells at addresses 1 and 2 are called the *noun* and the
*verb*; a search tries all small nouns and verbs for one that leaves a wanted value in cell 0.
-/

namespace CellMachine

/-- A value to be written at an address before a program is run. -/
structure Patch where
  address : Cell
  value : Cell
  deriving DecidableEq, Repr

namespace Patch

/-- Writes patches in order, so that of two at one address the later one stays. -/
def applyAll (memory : Memory) : List Patch → Except Failure Memory
  | [] => .ok memory
  | patch :: rest =>
    match memory.write patch.address patch.value with
    | .ok memory => applyAll memory rest
    | .error f => .error (f.within .patch)

def nounVerb (noun verb : Cell) : List Patch :=
  [⟨1, noun⟩, ⟨2, verb⟩]

end Patch

/-- The memory in which a patched program halts, with what its run reported. -/
structure PatchedRun where
  result : Except Failure Memory
  events : List Event := []

/-- Runs a patched copy of a program. The patches are written once the memory has its size; a
program that reads input has none. -/
def runPatched (budget : Nat) (program : Memory) (patches : List Patch)
    (settings : List Setting) : Option PatchedRun :=
  match Computer.build program settings with
  | .error f => some { result := .error f }
  | .ok computer =>
    match Patch.applyAll computer.machine.memory patches with
    | .error f => some { result := .error f }
    | .ok memory => do
      let turn ← { computer with machine := .load memory }.run budget
      match turn.status with
      | .error f => return { result := .error f, events := turn.events }
      | .ok .awaiting =>
        return { result := .error turn.computer.machine.starved, events := turn.events }
      | .ok (.halted _) =>
        return { result := .ok turn.computer.machine.memory, events := turn.events }

/-- The value left in cell 0 by a program run with the given noun and verb. -/
def patchedResult (budget : Nat) (program : Memory) (noun verb : Cell)
    (settings : List Setting) : Option (Except Failure Cell × List Event) := do
  let run ← runPatched budget program (Patch.nounVerb noun verb) settings
  return (run.result.map fun memory => memory.cells.getD 0 0, run.events)

/-- The nouns, and the verbs, that a search tries: the cells from 0 up to 99. -/
def nounVerbRange : List Cell :=
  (List.range 100).map Int64.ofNat

def nounVerbPairs : List (Cell × Cell) :=
  nounVerbRange.flatMap fun noun => nounVerbRange.map fun verb => (noun, verb)

/-- The first pair of a list that leaves the target in cell 0. Pairs with which the program fails
are passed over. -/
def firstMatch (budget : Nat) (program : Memory) (target : Cell) (settings : List Setting) :
    List (Cell × Cell) → Option (Option (Cell × Cell))
  | [] => some none
  | (noun, verb) :: rest =>
    match runPatched budget program (Patch.nounVerb noun verb) settings with
    | none => none
    | some { result := .error _, .. } => firstMatch budget program target settings rest
    | some { result := .ok memory, .. } =>
      if memory.cells[0]? = some target then some (some (noun, verb))
      else firstMatch budget program target settings rest

/-- The first noun and verb with which a program leaves the target in cell 0. Settings that are
refused make the search fail as such. -/
def findNounVerb (budget : Nat) (program : Memory) (target : Cell) (settings : List Setting) :
    Option (Except Failure (Cell × Cell)) :=
  match Setup.ofSettings settings with
  | .error f => some (.error f)
  | .ok _ => do
    match ← firstMatch budget program target settings nounVerbPairs with
    | some pair => return .ok pair
    | none => return .error (Cause.noMatch.within (.target target))

end CellMachine
