import CellMachine.Computer

/-! # Rings of amplifiers

A ring is a row of amplifiers, all running the same program, each started with its phase setting
as first input. When the ring runs, the seed is sent to the first amplifier and signals are
relayed from each one to the next, from the last back to the first when there is feedback. The
signal of the ring is the last value that the last amplifier puts out before it halts.

One amplifier is current at a time and holds the signals that are pending. It is fed all of them,
one by one; then the turn passes on together with what it has put out. Once an amplifier has
halted its output is relayed when the turn comes back to it, and signals sent to it are dropped.
-/

namespace CellMachine.Amplifier

/-- A choice made when a ring is built. -/
inductive Choice where
  /-- The signal sent to the first amplifier. -/
  | seed (signal : Cell)
  /-- The ring and its computers report to a journal. -/
  | journal
  /-- A journal that does not exist, which is as good as none. -/
  | missingJournal
  /-- Settings for the computers of the ring. -/
  | computers (settings : List Setting)
  deriving DecidableEq, Repr

/-- The choices in force when a ring is built. -/
structure Config where
  seed : Cell := 0
  active : Bool := false
  settings : List Setting := []
  deriving DecidableEq, Repr

namespace Config

/-- The choices after one more. Settings for the computers add up. -/
def apply (c : Config) : Choice → Config
  | .seed signal => { c with seed := signal }
  | .journal => { c with active := true }
  | .missingJournal => c
  | .computers settings => { c with settings := c.settings ++ settings }

def ofChoices (choices : List Choice) : Config :=
  choices.foldl apply {}

/-- What the journal of the ring itself keeps, whose entries carry no label. -/
def record (c : Config) (event : Event) : List Event :=
  Journal.record { active := c.active } event

/-- The settings of the computer of an amplifier, which is named for its place in the ring. -/
def computerSettings (c : Config) (index : Nat) : List Setting :=
  [.journal c.active, .name ("amp" ++ countText index)] ++ c.settings

end Config

/-- What an amplifier does when it is not being fed. -/
inductive Slot.State where
  /-- Its computer waits for a signal. -/
  | waiting (computer : Computer)
  /-- It has halted and this output has not been relayed yet. -/
  | halted (buffer : List Cell)

/-- A place in the ring: an amplifier and its phase setting. -/
structure Slot where
  phase : Cell
  state : Slot.State

/-- A ring with amplifiers numbered from zero to `last`. -/
structure Ring where
  last : Nat
  slots : Vector Slot (last + 1)
  mode : Mode
  config : Config
  /-- A ring can be run only once. -/
  spent : Bool := false

/-- A result together with what was reported on the way to it. -/
structure Report (α : Type) where
  result : Except Failure α
  events : List Event := []

/-- Starts the amplifier at a place: its first input is the phase setting, and then it has to wait
for a signal. -/
def start (budget : Nat) (program : Memory) (config : Config) (index : Nat) (phase : Cell) :
    Option (Report Slot) :=
  match Computer.build program (config.computerSettings index) with
  | .error f => some { result := .error f }
  | .ok computer => do
    let turn ← computer.resume budget phase
    match turn.status with
    | .error f =>
      return { result := .error (f.within (.amplifierWithPhase index phase))
               events := turn.events }
    | .ok .awaiting =>
      return { result := .ok ⟨phase, .waiting turn.computer⟩, events := turn.events }
    | .ok (.halted _) =>
      let early := Cause.preconditionViolated.within .haltedEarly
      return { result := .error (early.within (.amplifierWithPhase index phase))
               events := turn.events }

/-- Starts the amplifiers of the given phase settings in order, the first one being at `index`,
until one fails. -/
def startAll (budget : Nat) (program : Memory) (config : Config) :
    (index : Nat) → (phases : List Cell) → Option (Report (Vector Slot phases.length))
  | _, [] => some { result := .ok #v[] }
  | index, phase :: rest => do
    let first ← start budget program config index phase
    match first.result with
    | .error f => return { result := .error f, events := first.events }
    | .ok slot =>
      let others ← startAll budget program config (index + 1) rest
      return { result := others.result.map fun slots => ⟨#[slot] ++ slots.toArray, by
                 simp [Nat.add_comm]⟩
               events := first.events ++ others.events }

namespace Ring

def build (budget : Nat) (program : Memory) (phases : List Cell) (mode : Mode) (config : Config) :
    Option (Report Ring) :=
  match phases with
  | [] => some { result := .error (Cause.preconditionViolated.within .noAmplifiers) }
  | phase :: rest => do
    let started ← startAll budget program config 0 (phase :: rest)
    return { result := started.result.map fun slots =>
               { last := rest.length, slots, mode, config }
             events := started.events }

def size (ring : Ring) : Nat :=
  ring.last + 1

end Ring

/-- The state of a running ring whose last amplifier is number `last`. -/
structure Relay (last : Nat) where
  slots : Vector Slot (last + 1)
  current : Fin (last + 1) := 0
  /-- The signals that the current amplifier has not been fed yet. -/
  pending : List Cell
  /-- The turns passed on without a signal since an amplifier was last fed. -/
  idle : Nat := 0
  /-- The last value put out by the last amplifier so far. -/
  signal : Option Cell := none

/-- What one round of the relay leads to. -/
inductive Round (last : Nat) where
  | next (relay : Relay last) (events : List Event)
  | done (result : Except Failure Cell) (events : List Event)

namespace Relay

variable {last : Nat}

/-- The amplifier whose turn it is. -/
def slot (r : Relay last) : Slot :=
  r.slots[r.current]

def setState (r : Relay last) (state : Slot.State) : Relay last :=
  { r with slots := r.slots.set r.current.val { r.slot with state } r.current.isLt }

/-- Notes the last of some values put out by the current amplifier, if it is the last in the ring.
-/
def noteSignal (r : Relay last) (output : List Cell) : Relay last :=
  if r.current = Fin.last last then { r with signal := output.getLast?.or r.signal } else r

/-- The circumstance of a failure of the current amplifier. -/
def place (r : Relay last) : Circumstance :=
  .amplifierWithPhase r.current.val r.slot.phase

/-- Passes the turn on to the next amplifier. When the turn has gone round the whole ring without a
signal, the amplifiers have stalled. -/
def pass (r : Relay last) (events : List Event) : Round last :=
  let idle := if r.pending.isEmpty then r.idle + 1 else r.idle
  if r.pending.isEmpty ∧ last + 1 ≤ idle then
    .done (.error (Cause.stalled.within (.amplifier r.current.val))) events
  else .next { r with current := r.current + 1, idle } events

/-- The result of a ring whose last amplifier has halted. -/
def result (r : Relay last) : Except Failure Cell :=
  match r.signal with
  | some signal => .ok signal
  | none => .error (Cause.noSignal.within r.place)

/-- The turn of an amplifier that has halted: it drops the signals sent to it, and its own output is
relayed. -/
def turnHalted (r : Relay last) (config : Config) (buffer : List Cell) : Round last :=
  let events :=
    if r.pending.isEmpty then []
    else config.record (.signalsDropped r.current.val r.pending.length)
  let r := { r.setState (.halted []) with pending := buffer }
  if r.current = Fin.last last then .done r.result events else r.pass events

/-- The current amplifier is fed the next pending signal and keeps its turn. -/
def turnFed (budget : Nat) (r : Relay last) (config : Config) (computer : Computer) (signal : Cell)
    (rest : List Cell) : Option (Round last) := do
  let turn ← computer.resume budget signal
  match turn.status with
  | .error f => return .done (.error (f.within r.place)) turn.events
  | .ok .awaiting =>
    let r := r.setState (.waiting turn.computer)
    return .next { r with pending := rest, idle := 0 } turn.events
  | .ok (.halted output) =>
    let r := (r.setState (.halted output)).noteSignal output
    return .next { r with pending := rest, idle := 0 }
      (turn.events ++ config.record (.amplifierHalted r.current.val output))

/-- The turn of an amplifier that waits while no signal is pending: in a chain it should have
halted, with feedback its output is relayed. -/
def turnDrained (r : Relay last) (mode : Mode) (computer : Computer) : Round last :=
  if mode = .chain then
    let stuck := Cause.preconditionViolated.within .nothingToRelay
    .done (.error (stuck.within r.place)) []
  else
    let (output, computer) := computer.takeOutput
    let r := (r.setState (.waiting computer)).noteSignal output
    { r with pending := output }.pass []

/-- One round of the relay. -/
def round (budget : Nat) (mode : Mode) (config : Config) (r : Relay last) :
    Option (Round last) :=
  match r.slot.state with
  | .halted buffer => some (r.turnHalted config buffer)
  | .waiting computer =>
    match r.pending with
    | signal :: rest => r.turnFed budget config computer signal rest
    | [] => some (r.turnDrained mode computer)

/-- Plays rounds until the ring is done, `log` being what was reported before. -/
def play (budget : Nat) (mode : Mode) (config : Config) :
    (rounds : Nat) → Relay last → (log : Array Event) → Option (Report Cell)
  | 0, _, _ => none
  | rounds + 1, r, log =>
    match r.round budget mode config with
    | none => none
    | some (.done result events) => some { result, events := (log ++ events).toList }
    | some (.next r events) => play budget mode config rounds r (log ++ events)

end Relay

namespace Ring

/-- Runs a ring. The budget bounds both the rounds of the relay and the instructions of each turn.
-/
def run (budget : Nat) (ring : Ring) : Option (Report Cell × Ring) :=
  if ring.spent then some ({ result := .error ⟨.alreadyRun, []⟩ }, ring)
  else do
    let relay : Relay ring.last := { slots := ring.slots, pending := [ring.config.seed] }
    let report ← relay.play budget ring.mode ring.config budget #[]
    return (report, { ring with spent := true })

end Ring

def relay (budget : Nat) (program : Memory) (phases : List Cell) (mode : Mode) (config : Config) :
    Option (Report Cell) := do
  let built ← Ring.build budget program phases mode config
  match built.result with
  | .error f => return { result := .error f, events := built.events }
  | .ok ring =>
    let (report, _) ← ring.run budget
    return { report with events := built.events ++ report.events }

end CellMachine.Amplifier
