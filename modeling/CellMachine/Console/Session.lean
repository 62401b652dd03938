import CellMachine.Computer

/-! # Sessions

A session runs a computer to its end. It feeds the computer from a list of values first, and then
asks for more if there is somebody to ask. Output is collected each time the computer stops, so
that nothing is lost when it fails.
-/

namespace CellMachine.Console

/-- A way to ask for values, one at a time. -/
abbrev Prompt (σ : Type) := σ → Except Failure Cell × σ

structure Session (σ : Type) where
  /-- The values not fed yet. -/
  inputs : List Cell
  /-- Whoever is asked when there are none left. -/
  asked : σ
  /-- The output collected so far. -/
  output : Array Cell := #[]
  /-- The instructions carried out so far. -/
  steps : Nat := 0
  log : Array Event := #[]

structure Ended (σ : Type) where
  output : List Cell
  /-- The failure that ended it, unless the computer halted. -/
  failure : Option Failure
  computer : Computer
  asked : σ
  steps : Nat
  events : List Event

namespace Session

variable {σ : Type}

/-- The next value for a computer that stands at `pc`, and the session without it. -/
def nextValue (prompt : Option (Prompt σ)) (s : Session σ) (m : Machine) :
    Except Failure Cell × Session σ :=
  match s.inputs with
  | value :: rest => (.ok value, { s with inputs := rest })
  | [] =>
    match prompt with
    | none => (.error m.starved, s)
    | some prompt =>
      match prompt s.asked with
      | (.ok value, asked) => (.ok value, { s with asked })
      | (.error f, asked) => (.error (f.within (.position m.pc)), { s with asked })

def finish (s : Session σ) (computer : Computer) (output : List Cell) (failure : Option Failure) :
    Ended σ :=
  { output := s.output.toList ++ output, failure, computer, asked := s.asked, steps := s.steps
    events := s.log.toList }

/-- Goes on from a turn of the computer until it halts or fails. -/
def goOn (budget : Nat) (prompt : Option (Prompt σ)) :
    (turns : Nat) → Session σ → Turn → Option (Ended σ)
  | 0, _, _ => none
  | turns + 1, s, turn =>
    let s := { s with log := s.log ++ turn.events }
    match turn.status with
    | .error f =>
      let (output, computer) := turn.computer.takeOutput
      some (s.finish computer output (some f))
    | .ok (.halted output) =>
      some ({ s with steps := s.steps + turn.computer.machine.steps }.finish
        turn.computer output none)
    | .ok .awaiting =>
      let (output, computer) := turn.computer.takeOutput
      let s := { s with
        steps := s.steps + computer.machine.steps
        output := s.output ++ output }
      match s.nextValue prompt computer.machine with
      | (.error f, s) => some (s.finish computer [] (some f))
      | (.ok value, s) =>
        match computer.resume budget value with
        | none => none
        | some turn => goOn budget prompt turns s turn

end Session

/-- Runs a computer with the given values, asking for more when they run out. -/
def converse {σ : Type} (budget : Nat) (computer : Computer) (inputs : List Cell)
    (prompt : Option (Prompt σ)) (asked : σ) : Option (Ended σ) :=
  (computer.run budget).bind fun turn =>
    Session.goOn budget prompt budget { inputs, asked } turn

end CellMachine.Console
