import CellMachine.Proofs.Machine.Session

/-! # Calls on a machine

A machine answers every call that is made on it, also after it has failed or halted: a machine that
has failed tries the same instruction again, and one that has halted refuses to be set going. A
history of calls lists each answer together with the machine after it.
-/

namespace CellMachine

inductive Reply where
  /-- The machine was set going and stopped in this way. -/
  | stopped (status : Except Failure Status)
  /-- These values were taken. -/
  | took (values : List Cell)

/-- A call that has returned: what it answered, and the machine after it. -/
structure Response where
  reply : Reply
  machine : Machine

def Response.ofStop (stop : Stop) : Response :=
  ⟨.stopped stop.status, stop.machine⟩

namespace Machine

/-- Makes a call on a machine. The answer `none` says that the call does not return within the
budget. -/
def call (budget : Nat) (m : Machine) : Call → Option Response
  | .run => (m.run budget).map .ofStop
  | .resume value => (m.resume budget value).map .ofStop
  | .takeOutput => some ⟨.took m.takeOutput.1, m.takeOutput.2⟩

def calls (budget : Nat) : Machine → List Call → Option (List Response)
  | _, [] => some []
  | m, call :: rest =>
    (m.call budget call).bind fun response =>
      (response.machine.calls budget rest).map (response :: ·)

end Machine

end CellMachine
