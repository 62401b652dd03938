import CellMachine.Machine
import CellMachine.Sink

/-! # Dumps

A dump of a memory is the text of its cells separated by commas, and a new line. It is a program
text that reads back as the same memory. A dump of a machine has the program counter on a line in
front.
-/

namespace CellMachine

open Text

variable {σ : Type}

namespace Memory

/-- Writes a memory. A failure is reported by the last call, the sticky writer having kept it. -/
def dump (sink : Sink σ) (m : Memory) (w : Sticky σ) : Option Failure × Sticky σ :=
  let (_, w) := w.writeCells sink (Utf8.encode [',']) m.toList
  let (taken, w) := w.write sink (Utf8.encode ['\n'])
  (taken.failure, w)

def dumpTo (sink : Sink σ) (m : Memory) (device : σ) : Option Failure × σ :=
  let (failure, w) := m.dump sink (Outlet.plain device).guarded
  (failure, w.device)

end Memory

namespace Machine

def pcLine (m : Machine) : List UInt8 :=
  Utf8.encode ("pc: ".toList ++ Decimal.ofCell m.pc ++ ['\n'])

/-- Writes the program counter and the memory of a machine to a sink. -/
def dumpTo (sink : Sink σ) (m : Machine) (device : σ) : Option Failure × σ :=
  match sink m.pcLine device with
  | (⟨_, some f⟩, device) => (some f, device)
  | (⟨_, none⟩, device) => m.memory.dumpTo sink device

end Machine

end CellMachine
