import CellMachine.Machine

/-! # Running a machine

A machine that is set going carries out instructions until it halts, fails, or needs an input
value that it was not given. Programs may run for ever, so every run is given a budget of
instructions; the answer `none` says that the budget was too small and nothing else. A larger
budget never changes an answer.
-/

namespace CellMachine

/-- The state in which a machine stops without failing. -/
inductive Status where
  /-- It stands at an instruction that reads an input value. -/
  | awaiting
  /-- It halted with the values that had not been taken. -/
  | halted (output : List Cell)
  deriving DecidableEq, Repr

structure Stop where
  machine : Machine
  status : Except Failure Status

namespace Machine

/-- Carries out instructions until the machine stops. -/
def runFrom : (budget : Nat) → Machine → (input : Option Cell) → Option Stop
  | 0, _, _ => none
  | budget + 1, m, input =>
    match m.step input with
    | .next m input => runFrom budget m input
    | .suspended m => some ⟨m, .ok .awaiting⟩
    | .halted m output => some ⟨m, .ok (.halted output)⟩
    | .failed m f => some ⟨m, .error f⟩

/-- A run that stops within its budget stops in the same way within any larger one. -/
theorem runFrom_mono {budget larger : Nat} {m : Machine} {input : Option Cell} {stop : Stop}
    (le : budget ≤ larger) (stops : runFrom budget m input = some stop) :
    runFrom larger m input = some stop := by
  induction budget generalizing larger m input with
  | zero => cases stops
  | succ budget ih =>
    obtain ⟨larger, rfl⟩ : ∃ rest, larger = rest + 1 := ⟨larger - 1, by omega⟩
    unfold runFrom at stops ⊢
    cases stepped : m.step input with
    | next next rest =>
      simp only [stepped] at stops ⊢
      exact ih (by omega) stops
    | suspended _ | halted _ _ | failed _ _ => simpa only [stepped] using stops

/-- Sets a machine going with at most one input value. A machine that has halted stays as it is. -/
def execute (budget : Nat) (m : Machine) (input : Option Cell) : Option Stop :=
  if m.halted then some ⟨m, .error ⟨.alreadyHalted, []⟩⟩
  else runFrom budget { m with steps := 0 } input

/-- A larger budget never changes the way in which a machine stops. -/
theorem execute_mono {budget larger : Nat} {m : Machine} {input : Option Cell} {stop : Stop}
    (le : budget ≤ larger) (stops : m.execute budget input = some stop) :
    m.execute larger input = some stop := by
  unfold execute at stops ⊢
  cases state : m.halted with
  | true => simpa only [state, ↓reduceIte] using stops
  | false =>
    simp only [state, Bool.false_eq_true, ↓reduceIte] at stops ⊢
    exact runFrom_mono le stops

def run (budget : Nat) (m : Machine) : Option Stop :=
  m.execute budget none

def resume (budget : Nat) (m : Machine) (value : Cell) : Option Stop :=
  m.execute budget (some value)

/-- A machine at the start of the program in a memory. -/
def load (memory : Memory) : Machine :=
  { memory }

/-- The failure of a machine that needs an input value when there is none left. -/
def starved (m : Machine) : Failure :=
  Cause.inputExhausted.within (.position m.pc)

/-- Feeds a stopped machine from a list of input values until it halts or fails. -/
def feed (budget : Nat) : List Cell → Stop → Option (Except Failure (List Cell))
  | _, ⟨_, .error f⟩ => some (.error f)
  | _, ⟨_, .ok (.halted output)⟩ => some (.ok output)
  | [], ⟨m, .ok .awaiting⟩ => some (.error m.starved)
  | value :: rest, ⟨m, .ok .awaiting⟩ => (m.resume budget value).bind (feed budget rest)

end Machine

/-- Runs a program on the given input values and answers its output. -/
def exec (budget : Nat) (program : Memory) (inputs : List Cell) :
    Option (Except Failure (List Cell)) :=
  ((Machine.load program).run budget).bind (Machine.feed budget inputs)

end CellMachine
