import CellMachine.Instruction.Decode

/-! # Machines

A machine carries out the instructions in its own memory, one after the other, and may change them
as it goes. It reads one input value at most before it is fed again; what it puts out is kept
until somebody takes it. `Machine.step` carries out one instruction.
-/

namespace CellMachine

/-- The state of a machine between two instructions. -/
structure Machine where
  /-- The address of the next instruction. -/
  pc : Cell := 0
  memory : Memory
  /-- The values put out and not taken yet, the oldest first. -/
  output : Array Cell := #[]
  /-- The instructions carried out since the machine was last set going. -/
  steps : Nat := 0
  halted : Bool := false
  deriving DecidableEq, Repr

/-- What became of a machine that tried to carry out one instruction. -/
inductive Step where
  /-- The instruction was carried out; the input value remains unless it was read. -/
  | next (machine : Machine) (input : Option Cell)
  /-- The instruction reads an input value and there is none. -/
  | suspended (machine : Machine)
  /-- The machine halted with the values that had not been taken. -/
  | halted (machine : Machine) (output : List Cell)
  /-- The instruction failed and changed nothing. -/
  | failed (machine : Machine) (failure : Failure)

namespace Machine

/-- The machine after an instruction that falls through to the one behind it. -/
@[inline]
def fallThrough (m : Machine) (ins : Instruction) : Machine :=
  { m with pc := m.pc + Int64.ofNat ins.size, steps := m.steps + 1 }

@[inline]
def jump (m : Machine) (target : Cell) : Machine :=
  { m with pc := target, steps := m.steps + 1 }

@[inline]
def store (m : Machine) (ins : Instruction) (value : Cell) (input : Option Cell) : Step :=
  match m.memory.write ins.dest value with
  | .ok memory => .next ({ m with memory }.fallThrough ins) input
  | .error f => .failed m (f.within (.instruction ins m.pc))

/-- Carries out the instruction at the program counter. -/
def step (m : Machine) (input : Option Cell) : Step :=
  match Instruction.decode m.memory m.pc with
  | .error undecoded => .failed m undecoded.failure
  | .ok ins =>
    match ins.op with
    | .add => m.store ins (ins.a + ins.b) input
    | .mul => m.store ins (ins.a * ins.b) input
    | .lessThan => m.store ins (.ofBool (ins.a < ins.b)) input
    | .equals => m.store ins (.ofBool (ins.a = ins.b)) input
    | .input =>
      match input with
      | none => .suspended m
      | some value => m.store ins value none
    | .output => .next ({ m with output := m.output.push ins.a }.fallThrough ins) input
    | .jumpIfTrue =>
      if ins.a ≠ 0 then .next (m.jump ins.dest) input else .next (m.fallThrough ins) input
    | .jumpIfFalse =>
      if ins.a = 0 then .next (m.jump ins.dest) input else .next (m.fallThrough ins) input
    | .halt =>
      .halted { m with output := #[], steps := m.steps + 1, halted := true } m.output.toList
    | .unknown code => .failed m (Cause.invalidOpcode.within (.word code m.pc))

def takeOutput (m : Machine) : List Cell × Machine :=
  (m.output.toList, { m with output := #[] })

end Machine

end CellMachine
