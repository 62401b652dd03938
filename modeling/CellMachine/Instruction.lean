import CellMachine.Text.Decimal

/-! # Instructions

An instruction word carries an operation in its two low decimal digits and one addressing mode per
operand in the digits above them. An instruction is an operation with its operands already resolved.
-/

namespace CellMachine

/-- The operation selected by the two low decimal digits of an instruction word. -/
inductive Opcode where
  | add
  | mul
  | input
  | output
  | jumpIfTrue
  | jumpIfFalse
  | lessThan
  | equals
  | halt
  | unknown (code : Cell)
  deriving DecidableEq, Repr

namespace Opcode

def ofCode (code : Cell) : Opcode :=
  if code = 1 then add
  else if code = 2 then mul
  else if code = 3 then input
  else if code = 4 then output
  else if code = 5 then jumpIfTrue
  else if code = 6 then jumpIfFalse
  else if code = 7 then lessThan
  else if code = 8 then equals
  else if code = 99 then halt
  else unknown code

def code : Opcode → Cell
  | add => 1
  | mul => 2
  | input => 3
  | output => 4
  | jumpIfTrue => 5
  | jumpIfFalse => 6
  | lessThan => 7
  | equals => 8
  | halt => 99
  | unknown code => code

/-- Whether the machine can carry out the operation. -/
def isKnown : Opcode → Bool
  | unknown _ => false
  | _ => true

def mnemonic : Opcode → String
  | add => "add"
  | mul => "mul"
  | input => "in"
  | output => "out"
  | jumpIfTrue => "jt"
  | jumpIfFalse => "jf"
  | lessThan => "lt"
  | equals => "eq"
  | halt => "hlt"
  | unknown code => "op(" ++ code.text ++ ")"

/-- The operands that an operation takes, in the order of their words. -/
inductive Shape where
  /-- Two values, then the address of the result. -/
  | binary
  /-- A value to test, then the value to jump to. -/
  | jump
  /-- The address of the result. -/
  | store
  /-- A value. -/
  | emit
  /-- No operand. -/
  | plain
  deriving DecidableEq, Repr

def shape : Opcode → Shape
  | add | mul | lessThan | equals => .binary
  | jumpIfTrue | jumpIfFalse => .jump
  | input => .store
  | output => .emit
  | halt | unknown _ => .plain

end Opcode

/-- How the word of an operand gives its value. -/
inductive AddressingMode where
  /-- The word is the address of the value. -/
  | position
  /-- The word is the value. -/
  | immediate
  | unknown (digit : Cell)
  deriving DecidableEq, Repr

namespace AddressingMode

def ofDigit (digit : Cell) : AddressingMode :=
  if digit = 0 then position else if digit = 1 then immediate else unknown digit

def name : AddressingMode → String
  | position => "position"
  | immediate => "immediate"
  | unknown digit => "mode(" ++ digit.text ++ ")"

end AddressingMode

/-- The operands that have an addressing mode. -/
inductive Operand where
  | first
  | second
  deriving DecidableEq, Repr

namespace Operand

/-- The distance of an operand's word from the instruction word, which is also its number. -/
def offset : Operand → Cell
  | first => 1
  | second => 2

/-- The weight of the decimal digit that holds an operand's mode. -/
def weight : Operand → Cell
  | first => 100
  | second => 1000

def mode (operand : Operand) (word : Cell) : AddressingMode :=
  .ofDigit (word / operand.weight % 10)

end Operand

/-- An operation with resolved operands. The fields an operation does not use are zero. -/
structure Instruction where
  op : Opcode := .unknown 0
  a : Cell := 0
  b : Cell := 0
  dest : Cell := 0
  deriving DecidableEq, Repr

namespace Instruction

/-- The number of memory cells that an instruction occupies. -/
def size (ins : Instruction) : Nat :=
  match ins.op.shape with
  | .binary => 4
  | .jump => 3
  | .store | .emit => 2
  | .plain => 1

/-- An instruction in assembler form: the mnemonic, the values, and the destination after `@`. -/
def text (ins : Instruction) : String :=
  let name := ins.op.mnemonic
  match ins.op.shape with
  | .binary => name ++ " " ++ ins.a.text ++ " " ++ ins.b.text ++ " @" ++ ins.dest.text
  | .jump => name ++ " " ++ ins.a.text ++ " @" ++ ins.dest.text
  | .store => name ++ " @" ++ ins.dest.text
  | .emit => name ++ " " ++ ins.a.text
  | .plain => name

end Instruction

end CellMachine
