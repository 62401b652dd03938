import CellMachine.Proofs.Interpreter

/-! # Machines follow the plain interpreter

Between two calls a machine is the plain interpreter with at most one input value and the output
that nobody has taken yet. Setting it going is one run of the plain interpreter on that one value:
`Machine.execute_eq` is an equation of answers, budget by budget, so whatever is known of the plain
interpreter carries over to machines.
-/

namespace CellMachine

namespace Machine

/-- The plain interpreter that stands where a machine stands, with the given input. -/
def plain (m : Machine) (input : List Cell) : Interpreter :=
  { pc := m.pc, memory := m.memory, input, output := m.output.toList }

/-- The machine moved to where the plain interpreter stands after a number of instructions. -/
def moved (m : Machine) (s : Interpreter) (steps : Nat) : Machine :=
  { m with pc := s.pc, memory := s.memory, output := s.output.toArray, steps := m.steps + steps }

/-- The machine with its count of instructions set back. -/
def reset (m : Machine) : Machine :=
  { m with steps := 0 }

/-- What a machine does when the plain interpreter in its place does the given. -/
def follow (m : Machine) : Except Interpreter.Ending Interpreter → Step
  | .ok s => .next (m.moved s 1) s.input.head?
  | .error .starved => .suspended m
  | .error .halted =>
    .halted { m with output := #[], steps := m.steps + 1, halted := true } m.output.toList
  | .error (.failed f) => .failed m f

/-- How a machine stops when the plain interpreter in its place comes to rest. -/
def stopAt (m : Machine) (o : Interpreter.Outcome) : Stop :=
  match o.ending with
  | .starved => ⟨m.moved o.final o.steps, .ok .awaiting⟩
  | .halted =>
    ⟨{ m.moved o.final o.steps with output := #[], halted := true }, .ok (.halted o.final.output)⟩
  | .failed f => ⟨m.moved o.final o.steps, .error f⟩

/-- The cell of a comparison is the one that the plain interpreter stores. -/
private theorem ofBool_decide (p : Prop) [Decidable p] :
    Cell.ofBool (decide p) = if p then 1 else 0 := by
  by_cases holds : p <;> simp [Cell.ofBool, holds]

theorem store_eq (m : Machine) (ins : Instruction) {length : Cell}
    (size : Int64.ofNat ins.size = length) (value : Cell) (input : Option Cell) :
    m.store ins value input = m.follow ((m.plain input.toList).store ins length value) := by
  rw [Interpreter.store_eq, ← size]
  simp only [store, plain]
  cases m.memory.write ins.dest value <;> cases input <;> rfl

/-- A step of a machine is a step of the plain interpreter in its place. -/
theorem step_eq (m : Machine) (input : Option Cell) :
    m.step input = m.follow (m.plain input.toList).step := by
  unfold step Interpreter.step
  simp only [plain, ofBool_decide]
  cases Instruction.decode m.memory m.pc with
  | error undecoded => rfl
  | ok ins =>
    obtain ⟨op, a, b, dest⟩ := ins
    cases op with
    | add | mul | lessThan | equals => exact m.store_eq _ rfl ..
    | input =>
      cases input with
      | none => rfl
      | some value => exact m.store_eq _ rfl value none
    | output =>
      have pushed : m.output.push a = (m.output.toList ++ [a]).toArray := by
        rw [← Array.toList_push, Array.toArray_toList]
      cases input <;>
        simp [Interpreter.perform, Instruction.size, Opcode.shape, follow, moved, fallThrough,
          pushed]
    | jumpIfTrue =>
      by_cases taken : a ≠ 0 <;> cases input <;>
        simp [Interpreter.perform, Instruction.size, Opcode.shape, follow, moved, fallThrough,
          jump, taken]
    | jumpIfFalse =>
      by_cases taken : a = 0 <;> cases input <;>
        simp [Interpreter.perform, Instruction.size, Opcode.shape, follow, moved, fallThrough,
          jump, taken]
    | halt | unknown code => rfl

/-- A machine that is set going stops as the plain interpreter in its place does. -/
theorem runFrom_eq (budget : Nat) (m : Machine) (input : Option Cell) :
    m.runFrom budget input = ((m.plain input.toList).run budget).map m.stopAt := by
  induction budget generalizing m input with
  | zero => rfl
  | succ budget ih =>
    unfold runFrom Interpreter.run
    rw [step_eq]
    cases stepped : (m.plain input.toList).step with
    | error ending =>
      cases ending <;> simp [follow, stopAt, moved, plain, Interpreter.Ending.steps]
    | ok s =>
      -- At most one input value is at hand, so what the step leaves of it is again optional.
      have left : s.input.head?.toList = s.input := by
        have short := (Interpreter.step_traffic stepped).1.length_le
        cases input <;> cases rest : s.input <;> simp_all [plain]
      have place : (m.moved s 1).plain s.input.head?.toList = s := by
        simp [plain, moved, left]
      simp only [follow, ih, place, Option.map_map]
      congr 1
      funext o
      cases ending : o.ending <;>
        simp [stopAt, moved, Interpreter.Outcome.later, ending, Nat.add_assoc]

/-- Setting a machine going that has not halted is one run of the plain interpreter. -/
theorem execute_eq {m : Machine} (alive : m.halted = false) (budget : Nat) (input : Option Cell) :
    m.execute budget input = ((m.plain input.toList).run budget).map m.reset.stopAt := by
  rw [execute, if_neg (by simp [alive])]
  exact runFrom_eq budget m.reset input

end Machine

end CellMachine
