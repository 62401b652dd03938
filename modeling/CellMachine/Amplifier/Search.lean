import CellMachine.Amplifier.Ring
import CellMachine.Arrangement

/-! # The greatest signal

The amplifiers of a ring may take the phase settings in any order. The search runs a ring for
every arrangement of the settings and keeps the first one with the greatest signal; it fails with
the first ring that fails.
-/

namespace CellMachine.Amplifier

/-- A signal and the arrangement of phase settings that produces it. -/
structure Best where
  signal : Cell
  phases : List Cell
  deriving DecidableEq, Repr

structure Search where
  best : Option Best := none
  /-- The number of rings run. -/
  runs : Nat := 0
  failure : Option Failure := none
  log : Array Event := #[]

namespace Search

/-- Whether a signal is greater than all those found before. -/
def improves (s : Search) (signal : Cell) : Bool :=
  match s.best with
  | none => true
  | some best => best.signal < signal

def tally (s : Search) (config : Config) (phases : List Cell) (report : Report Cell) :
    ForInStep Search :=
  let s := { s with runs := s.runs + 1, log := s.log ++ report.events }
  match report.result with
  | .error f => .done { s with failure := some (f.within (.phases phases)) }
  | .ok signal =>
    if s.improves signal then
      .yield { s with
        best := some ⟨signal, phases⟩
        log := s.log ++ config.record (.newMaximum signal phases) }
    else .yield s

/-- The search over all arrangements of phase settings. -/
def all (budget : Nat) (program : Memory) (phases : List Cell) (mode : Mode) (config : Config) :
    Option Search :=
  Arrangement.visitAll phases {} fun ordering s =>
    (relay budget program ordering mode config).map (s.tally config ordering)

end Search

/-- The greatest signal over all arrangements of phase settings. -/
def maxSignal (budget : Nat) (program : Memory) (phases : List Cell) (mode : Mode)
    (config : Config) : Option (Report Best) := do
  let s ← Search.all budget program phases mode config
  match s.failure with
  | some f => return { result := .error f, events := s.log.toList }
  | none =>
    let log := s.log ++ config.record (.searchDone mode s.runs)
    return { result := .ok (s.best.getD ⟨0, []⟩), events := log.toList }

/-- The phase settings to search when none are given. -/
def defaultPhases : Mode → List Cell
  | .feedback => [5, 6, 7, 8, 9]
  | _ => [0, 1, 2, 3, 4]

end CellMachine.Amplifier
