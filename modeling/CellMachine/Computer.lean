import CellMachine.Journal
import CellMachine.Machine.Run

/-! # Computers

A computer is a machine that reports to a journal. It is built from a program and a list of
settings, which are applied in order; the first one that is refused is the failure. A computer
reports when its machine stops to wait for input and when it halts, and says nothing of failures.

Left out are settings of a user's own making, which could do anything to a machine. The count of
instructions does not wrap here; as a cell it would after `2 ^ 63` instructions in a single call.
-/

namespace CellMachine

/-- A choice made when a computer is built. -/
inductive Setting where
  /-- The memory has at least this number of cells. -/
  | minSize (size : Cell)
  /-- The name under which the computer reports. -/
  | name (name : String)
  /-- The computer reports to a journal, which may be one that keeps nothing. -/
  | journal (active : Bool)
  /-- The computer reports to a journal that does not exist. -/
  | missingJournal
  deriving DecidableEq, Repr

namespace Setting

/-- Why a setting is refused, if it is. -/
def refusal? : Setting → Option Failure
  | minSize size => if size < 0 then some ⟨.invalidMemorySize size, []⟩ else none
  | name _ | journal _ => none
  | missingJournal => some ⟨.noJournal, []⟩

end Setting

/-- The choices in force when a computer is built. -/
structure Setup where
  minSize : Cell := 0
  name : String := ""
  active : Bool := false
  deriving DecidableEq, Repr

namespace Setup

/-- The choices after one more setting that is not refused. -/
def adopt (s : Setup) : Setting → Setup
  | .minSize size => { s with minSize := size }
  | .name name => { s with name }
  | .journal active => { s with active }
  | .missingJournal => s

def apply (s : Setup) (setting : Setting) : Except Failure Setup :=
  match setting.refusal? with
  | some f => .error f
  | none => .ok (s.adopt setting)

/-- The choices made by a list of settings, the later ones overriding the earlier ones. -/
def ofSettings (settings : List Setting) : Except Failure Setup :=
  settings.foldlM apply {}

/-- The journal of a computer with these choices; only a name that is not empty labels its entries.
-/
def journal (s : Setup) : Journal :=
  { active := s.active, label := if s.name.isEmpty then none else some s.name }

end Setup

/-- A machine and the journal that it reports to. -/
structure Computer where
  machine : Machine
  journal : Journal := {}
  deriving DecidableEq, Repr

/-- A computer that has stopped: how it stopped, and what it reported. -/
structure Turn where
  computer : Computer
  status : Except Failure Status
  events : List Event

namespace Computer

def build (program : Memory) (settings : List Setting) : Except Failure Computer := do
  let setup ← Setup.ofSettings settings
  return { machine := .load (program.grow setup.minSize), journal := setup.journal }

/-- Applies one setting to a computer in use. A new journal carries no label; the other settings had
their say when the computer was built. -/
def adjust (c : Computer) : Setting → Computer
  | .journal active => { c with journal := { active } }
  | _ => c

def configure (c : Computer) : List Setting → Computer × Option Failure
  | [] => (c, none)
  | setting :: rest =>
    match setting.refusal? with
    | some f => (c, some f)
    | none => (c.adjust setting).configure rest

/-- What a stopped machine reports. -/
def report (j : Journal) (stop : Stop) : List Event :=
  match stop.status with
  | .error _ => []
  | .ok .awaiting => j.record (.awaitingInput j.label stop.machine.pc stop.machine.steps)
  | .ok (.halted output) =>
    j.record (.halted j.label stop.machine.pc stop.machine.steps output.length)

/-- Sets a computer going with at most one input value. -/
def execute (budget : Nat) (c : Computer) (input : Option Cell) : Option Turn :=
  let journal := c.journal
  (c.machine.execute budget input).map fun stop =>
    ⟨{ machine := stop.machine, journal }, stop.status, report journal stop⟩

def run (budget : Nat) (c : Computer) : Option Turn :=
  c.execute budget none

def resume (budget : Nat) (c : Computer) (value : Cell) : Option Turn :=
  c.execute budget (some value)

def takeOutput (c : Computer) : List Cell × Computer :=
  let (output, machine) := c.machine.takeOutput
  (output, { c with machine })

end Computer

end CellMachine
