import CellMachine.Memory

/-! # Decoding

The instruction at an address is decoded in a fixed order: the word is fetched, its operation is
checked, and then each operand in turn is read, checked for its mode and resolved. The first check
that fails is the failure, and what was resolved before it is kept.
-/

namespace CellMachine

/-- An instruction that could not be decoded: the fields resolved so far, and why it stopped. -/
structure Undecoded where
  resolved : Instruction
  failure : Failure
  deriving DecidableEq, Repr

/-- The value of an operand of the instruction `word` at `pc`. -/
@[inline]
def Operand.resolve (operand : Operand) (m : Memory) (pc word : Cell) : Except Failure Cell :=
  match m.read (pc + operand.offset) with
  | .error f => .error f
  | .ok value =>
    match operand.mode word with
    | .position => m.read value
    | .immediate => .ok value
    | .unknown _ => .error (Cause.invalidMode.within (.operand operand word pc))

namespace Instruction

/-- The failure to resolve an operand. Only an access outside memory names the operation, since an
invalid mode already names the instruction word. -/
def unresolved (ins : Instruction) (pc : Cell) (f : Failure) : Undecoded :=
  ⟨ins, if f.cause = .addressOutOfBounds then f.within (.decode ins.op pc) else f⟩

/-- The instruction at an address of a memory. -/
@[inline]
def decode (m : Memory) (pc : Cell) : Except Undecoded Instruction :=
  match m.read pc with
  | .error f => .error ⟨{}, f.within (.fetch pc)⟩
  | .ok word =>
    let op := Opcode.ofCode (word % 100)
    if word < 0 ∨ op.isKnown = false then
      .error ⟨{ op }, Cause.invalidOpcode.within (.word word pc)⟩
    else match op.shape with
      | .binary =>
        match Operand.first.resolve m pc word with
        | .error f => .error (unresolved { op } pc f)
        | .ok a =>
          match Operand.second.resolve m pc word with
          | .error f => .error (unresolved { op, a } pc f)
          | .ok b =>
            match m.read (pc + 3) with
            | .error f => .error (unresolved { op, a, b } pc f)
            | .ok dest => .ok { op, a, b, dest }
      | .jump =>
        match Operand.first.resolve m pc word with
        | .error f => .error (unresolved { op } pc f)
        | .ok a =>
          match Operand.second.resolve m pc word with
          | .error f => .error (unresolved { op, a } pc f)
          | .ok dest => .ok { op, a, dest }
      | .store =>
        match m.read (pc + 1) with
        | .error f => .error (unresolved { op } pc f)
        | .ok dest => .ok { op, dest }
      | .emit =>
        match Operand.first.resolve m pc word with
        | .error f => .error (unresolved { op } pc f)
        | .ok a => .ok { op, a }
      | .plain => .ok { op }

end Instruction

end CellMachine
