import CellMachine.Instruction
import CellMachine.Source.Position

/-! # Failures

A failure is a cause together with the circumstances in which it arose, the outermost first.
Causes tell kinds of failure apart; circumstances say which address, instruction or amplifier was
concerned. Going up through the layers of the library adds circumstances and never changes the
cause.
-/

namespace CellMachine

open Text

/-- Why a file cannot be opened. -/
inductive OpenProblem where
  /-- Nothing stands under its name. -/
  | missing
  /-- Its name leads through something that is not a directory. -/
  | notDirectory
  /-- Its name or a step of it is longer than names may be. -/
  | nameTooLong
  /-- Its name holds the character that no name may hold. -/
  | invalidName
  /-- It may not be read. -/
  | denied
  deriving DecidableEq, Repr

def OpenProblem.message : OpenProblem → String
  | missing => "no such file or directory"
  | notDirectory => "not a directory"
  | nameTooLong => "file name too long"
  | invalidName => "invalid argument"
  | denied => "permission denied"

/-- The root of a failure. -/
inductive Cause where
  | invalidOpcode
  | invalidMode
  | addressOutOfBounds
  | inputExhausted
  | noMatch
  | preconditionViolated
  | noSignal
  | stalled
  /-- A program text with faults. -/
  | faultySource (diagnostics : List Source.Diagnostic)
  /-- A text that is not a number. -/
  | notANumber (text : List Symbol) (problem : Numeral.Problem)
  /-- A file that cannot be opened. -/
  | unopened (name : String) (problem : OpenProblem)
  /-- A halted machine was run again. -/
  | alreadyHalted
  /-- A ring of amplifiers was run again. -/
  | alreadyRun
  /-- A setting names no journal. -/
  | noJournal
  | invalidMemorySize (size : Cell)
  /-- Room was asked for a negative number of values. -/
  | capacityOutOfRange
  /-- A device refused to take what was written to it. -/
  | device (reason : String)
  deriving DecidableEq, Repr

namespace Cause

def message : Cause → String
  | invalidOpcode => "invalid opcode"
  | invalidMode => "invalid addressing mode"
  | addressOutOfBounds => "address out of bounds"
  | inputExhausted => "input exhausted"
  | noMatch => "no matching noun and verb"
  | preconditionViolated => "amplifier precondition violated"
  | noSignal => "no output signal"
  | stalled => "amplifiers stalled"
  | faultySource diagnostics => "\n".intercalate (diagnostics.map Source.Diagnostic.text)
  | notANumber text problem => problem.report text
  | unopened name problem => "open " ++ name ++ ": " ++ problem.message
  | alreadyHalted => "vm: execute on halted instance"
  | alreadyRun => "amp: ring already run"
  | noJournal => "nil logger"
  | invalidMemorySize size => "invalid memory size " ++ size.text
  | capacityOutOfRange => "runtime error: makeslice: cap out of range"
  | device reason => reason

end Cause

/-- A circumstance in which a failure arose. -/
inductive Circumstance where
  | read (address : Cell) (size : Nat)
  | write (address : Cell) (size : Nat)
  | fetch (pc : Cell)
  /-- The operands of an operation were being resolved. -/
  | decode (op : Opcode) (pc : Cell)
  | word (value pc : Cell)
  | operand (which : Operand) (value pc : Cell)
  /-- An instruction was being carried out. -/
  | instruction (ins : Instruction) (pc : Cell)
  /-- The machine stood at an address. -/
  | position (pc : Cell)
  | patch
  | target (value : Cell)
  | noAmplifiers
  | amplifier (index : Nat)
  | amplifierWithPhase (index : Nat) (phase : Cell)
  | haltedEarly
  | nothingToRelay
  | phases (settings : List Cell)
  | load
  | endOfInput
  | inputLine (text : List Symbol)
  | writeFailed
  deriving DecidableEq, Repr

namespace Circumstance

def text : Circumstance → String
  | read address size => "read @" ++ address.text ++ "/" ++ countText size
  | write address size => "write @" ++ address.text ++ "/" ++ countText size
  | fetch pc => "fetch @pc=" ++ pc.text
  | decode op pc => "decode " ++ op.mnemonic ++ " @pc=" ++ pc.text
  | word value pc => value.text ++ " @pc=" ++ pc.text
  | operand which value pc =>
    "operand " ++ which.offset.text ++ " of " ++ value.text ++ " @pc=" ++ pc.text
  | instruction ins pc => ins.text ++ " @pc=" ++ pc.text
  | position pc => "@pc=" ++ pc.text
  | patch => "patch"
  | target value => "target " ++ value.text
  | noAmplifiers => "no amplifiers"
  | amplifier index => "amplifier " ++ countText index
  | amplifierWithPhase index phase =>
    "amplifier " ++ countText index ++ ", phase " ++ phase.text
  | haltedEarly => "halted before reading its input signal"
  | nothingToRelay => "waiting for input with no signal to relay"
  | phases settings => "phases " ++ cellsText settings
  | load => "Load"
  | endOfInput => "end of input"
  | inputLine text => "input " ++ Quoted.symbols text
  | writeFailed => "write failed"

end Circumstance

/-- A cause and the circumstances in which it arose, the outermost first. -/
structure Failure where
  cause : Cause
  circumstances : List Circumstance := []
  deriving DecidableEq, Repr

namespace Failure

/-- The same failure seen from one layer further out. -/
def within (f : Failure) (c : Circumstance) : Failure :=
  { f with circumstances := c :: f.circumstances }

/-- The message of a failure: its circumstances from the outermost in, then its cause. -/
def message (f : Failure) : String :=
  ": ".intercalate (f.circumstances.map Circumstance.text ++ [f.cause.message])

/-- A failure told from the inside out, one line for the cause and one for each circumstance. -/
def trace (f : Failure) : String :=
  "\n".intercalate (f.cause.message :: f.circumstances.reverse.map Circumstance.text)

end Failure

/-- The failure of a cause in one circumstance. -/
def Cause.within (cause : Cause) (c : Circumstance) : Failure :=
  { cause, circumstances := [c] }

end CellMachine
