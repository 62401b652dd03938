import Mathlib.Algebra.Ring.Nat
import Mathlib.Logic.Equiv.Fin.Rotate
import CellMachine.Proofs.Amplifier.Build

/-! # Rounds of a relay

A round after which the relay goes on is one of two things. Either the current amplifier waits, is
fed the next pending signal and keeps its turn, or it passes the turn on together with the output
that it has not relayed yet, and what is still pending then is dropped. The two inversions of
`Relay.round`, for rounds that go on and for the last one, are all that is used of it afterwards.
-/

namespace CellMachine.Amplifier

namespace Slot.State

def buffer : State → List Cell
  | waiting computer => computer.machine.output.toList
  | halted buffer => buffer

def emptied : State → State
  | waiting computer => waiting computer.takeOutput.2
  | halted _ => halted []

def isHalted : State → Bool
  | waiting _ => false
  | halted _ => true

/-- The values that an amplifier in this state has handed over on halting. -/
def handedOver : State → List Cell
  | waiting _ => []
  | halted output => output

/-- The state in which a turn that does not fail leaves an amplifier. -/
def ofTurn (turn : Turn) : Option State :=
  match turn.status with
  | .ok .awaiting => some (.waiting turn.computer)
  | .ok (.halted output) => some (.halted output)
  | .error _ => none

theorem handedOver_of_isHalted {state : State} (halted : state.isHalted) :
    state.handedOver = state.buffer := by
  cases state with
  | waiting computer => cases halted
  | halted output => rfl

@[simp]
theorem buffer_emptied (state : State) : state.emptied.buffer = [] := by
  cases state <;> rfl

@[simp]
theorem isHalted_emptied (state : State) : state.emptied.isHalted = state.isHalted := by
  cases state <;> rfl

end Slot.State

namespace Relay

variable {last : Nat}

def state (r : Relay last) (k : Fin (last + 1)) : Slot.State :=
  (r.slots[k]).state

def phase (r : Relay last) (k : Fin (last + 1)) : Cell :=
  (r.slots[k]).phase

def fed (r : Relay last) (state : Slot.State) (rest : List Cell) : Relay last :=
  { (r.setState state).noteSignal state.handedOver with pending := rest, idle := 0 }

/-- The relay after the current amplifier has passed the turn on with its output. -/
def passed (r : Relay last) : Relay last :=
  let output := (r.state r.current).buffer
  { (r.setState (r.state r.current).emptied).noteSignal output with
    current := finRotate (last + 1) r.current
    pending := output
    idle := if output.isEmpty then r.idle + 1 else r.idle }

/-- Only the slot of the current amplifier is changed, and in it only the state. -/
theorem getElem_slots_setState (r : Relay last) (state : Slot.State) (k : Fin (last + 1)) :
    (r.setState state).slots[k] =
      if k = r.current then { r.slots[k] with state } else r.slots[k] := by
  split
  case isTrue here =>
    subst here
    simp [setState, slot]
  case isFalse elsewhere =>
    have other : r.current.val ≠ k.val := fun same => elsewhere (Fin.ext same.symm)
    simp [setState, Vector.getElem_set_ne _ _ other]

@[simp]
theorem state_setState (r : Relay last) (state : Slot.State) :
    (r.setState state).state = Function.update r.state r.current state := by
  funext k
  simp only [Relay.state, getElem_slots_setState, Function.update_apply]
  split
  · rfl
  · rfl

@[simp]
theorem current_setState (r : Relay last) (state : Slot.State) :
    (r.setState state).current = r.current :=
  rfl

@[simp]
theorem state_noteSignal (r : Relay last) (output : List Cell) :
    (r.noteSignal output).state = r.state := by
  unfold noteSignal
  split <;> rfl

@[simp]
theorem current_noteSignal (r : Relay last) (output : List Cell) :
    (r.noteSignal output).current = r.current := by
  unfold noteSignal
  split <;> rfl

@[simp]
theorem signal_noteSignal (r : Relay last) (output : List Cell) :
    (r.noteSignal output).signal =
      if r.current = Fin.last last then output.getLast?.or r.signal else r.signal := by
  unfold noteSignal
  split <;> rfl

@[simp]
theorem noteSignal_nil (r : Relay last) : r.noteSignal [] = r := by
  unfold noteSignal
  split <;> rfl

@[simp]
theorem state_fed (r : Relay last) (state : Slot.State) (rest : List Cell) :
    (r.fed state rest).state = Function.update r.state r.current state := by
  change ((r.setState state).noteSignal state.handedOver).state = _
  simp

@[simp]
theorem current_fed (r : Relay last) (state : Slot.State) (rest : List Cell) :
    (r.fed state rest).current = r.current :=
  current_noteSignal ..

@[simp]
theorem phase_setState (r : Relay last) (state : Slot.State) :
    (r.setState state).phase = r.phase := by
  funext k
  simp only [Relay.phase, getElem_slots_setState]
  split
  · rfl
  · rfl

@[simp]
theorem phase_noteSignal (r : Relay last) (output : List Cell) :
    (r.noteSignal output).phase = r.phase := by
  unfold noteSignal
  split <;> rfl

/-- Feeding an amplifier changes no phase setting. -/
@[simp]
theorem phase_fed (r : Relay last) (state : Slot.State) (rest : List Cell) :
    (r.fed state rest).phase = r.phase := by
  change ((r.setState state).noteSignal state.handedOver).phase = _
  simp

theorem signal_fed (r : Relay last) (state : Slot.State) (rest : List Cell) :
    (r.fed state rest).signal =
      if r.current = Fin.last last then state.handedOver.getLast?.or r.signal else r.signal :=
  signal_noteSignal ..

@[simp]
theorem state_passed (r : Relay last) :
    r.passed.state = Function.update r.state r.current (r.state r.current).emptied := by
  change ((r.setState _).noteSignal _).state = _
  simp

/-- Passing the turn on changes no phase setting. -/
@[simp]
theorem phase_passed (r : Relay last) : r.passed.phase = r.phase := by
  change ((r.setState _).noteSignal _).phase = _
  simp

theorem current_passed (r : Relay last) : r.passed.current = r.current + 1 :=
  finRotate_apply r.current

theorem signal_passed (r : Relay last) :
    r.passed.signal = if r.current = Fin.last last then
      (r.state r.current).buffer.getLast?.or r.signal else r.signal :=
  signal_noteSignal ..

/-! ## Inversion of rounds -/

/-- What is reported when the turn is passed on while signals are pending. -/
def drops (r : Relay last) (config : Config) : List Event :=
  if r.pending = [] then [] else config.record (.signalsDropped r.current r.pending.length)

/-- A round after which the relay goes on. -/
inductive Moves (budget : Nat) (mode : Mode) (config : Config) (r : Relay last) :
    Relay last → List Event → Prop
  /-- The current amplifier is fed. -/
  | feed {computer : Computer} {signal : Cell} {rest : List Cell} {turn : Turn}
      {state : Slot.State} (waiting : r.state r.current = .waiting computer)
      (pending : r.pending = signal :: rest)
      (resumed : computer.resume budget signal = some turn)
      (left : Slot.State.ofTurn turn = some state) :
      Moves budget mode config r (r.fed state rest) (turn.events ++
        if state.isHalted then config.record (.amplifierHalted r.current state.buffer) else [])
  /-- The current amplifier passes the turn on. -/
  | pass (quiet : (r.state r.current).isHalted ∨ r.pending = [] ∧ mode ≠ .chain)
      (inner : (r.state r.current).isHalted → r.current ≠ Fin.last last)
      (lively : (r.state r.current).buffer = [] → r.idle < last) :
      Moves budget mode config r r.passed (r.drops config)

/-- A round after which the relay is done. -/
inductive Ends (budget : Nat) (mode : Mode) (config : Config) (r : Relay last) :
    Except Failure Cell → List Event → Prop
  /-- The current amplifier fails when it is fed. -/
  | failed {computer : Computer} {signal : Cell} {rest : List Cell} {turn : Turn} {f : Failure}
      (waiting : r.state r.current = .waiting computer) (pending : r.pending = signal :: rest)
      (resumed : computer.resume budget signal = some turn) (failed : turn.status = .error f) :
      Ends budget mode config r (.error (f.within r.place)) turn.events
  /-- Nothing is to be relayed along a chain. -/
  | stuck {computer : Computer} (waiting : r.state r.current = .waiting computer)
      (pending : r.pending = []) (chain : mode = .chain) :
      Ends budget mode config r
        (.error ((Cause.preconditionViolated.within .nothingToRelay).within r.place)) []
  /-- The last amplifier has halted. -/
  | complete (halted : (r.state r.current).isHalted) (outer : r.current = Fin.last last) :
      Ends budget mode config r r.result (r.drops config)
  /-- The turn has gone round the ring without a signal. -/
  | stalled (quiet : (r.state r.current).isHalted ∨ r.pending = [] ∧ mode ≠ .chain)
      (inner : (r.state r.current).isHalted → r.current ≠ Fin.last last)
      (empty : (r.state r.current).buffer = []) (idle : last ≤ r.idle) :
      Ends budget mode config r (.error (Cause.stalled.within (.amplifier r.current)))
        (r.drops config)

variable {budget : Nat} {mode : Mode} {config : Config} {r : Relay last}

/-- What comes of passing the turn on: the relay goes on or has stalled. -/
def passOn (r : Relay last) (events : List Event) : Round last :=
  if (r.state r.current).buffer = [] ∧ last ≤ r.idle then
    .done (.error (Cause.stalled.within (.amplifier r.current))) events
  else .next r.passed events

theorem pass_eq (r : Relay last) (events : List Event) :
    ({ (r.setState (r.state r.current).emptied).noteSignal (r.state r.current).buffer with
        pending := (r.state r.current).buffer }).pass events = r.passOn events := by
  have idle (s : Relay last) (output : List Cell) : (s.noteSignal output).idle = s.idle := by
    unfold noteSignal
    split <;> rfl
  simp only [pass, passOn, passed, idle, current_noteSignal, List.isEmpty_iff, finRotate_apply]
  by_cases empty : (r.state r.current).buffer = [] <;> simp [empty, setState]

theorem turnHalted_eq {buffer : List Cell} (halted : r.state r.current = .halted buffer) :
    r.turnHalted config buffer =
      if r.current = Fin.last last then .done r.result (r.drops config)
      else r.passOn (r.drops config) := by
  have events : (if r.pending.isEmpty then [] else
      config.record (.signalsDropped r.current.val r.pending.length)) = r.drops config := by
    simp [drops, List.isEmpty_iff]
  simp only [turnHalted, events]
  by_cases outer : r.current = Fin.last last
  · have same : ({ r.setState (.halted []) with pending := buffer }).result = r.result := by
      simp [result, place, slot, setState]
    rw [if_pos (by exact outer), if_pos outer, same]
  · rw [if_neg (by exact outer), if_neg outer, ← pass_eq, halted, noteSignal,
      if_neg (by exact outer)]
    rfl

theorem turnDrained_eq {computer : Computer} (waiting : r.state r.current = .waiting computer) :
    r.turnDrained mode computer =
      if mode = .chain then
        .done (.error ((Cause.preconditionViolated.within .nothingToRelay).within r.place)) []
      else r.passOn [] := by
  unfold turnDrained
  split
  · rfl
  · rw [← pass_eq, waiting]
    rfl

/-- What a round comes to is accounted for. -/
def Explains (budget : Nat) (mode : Mode) (config : Config) (r : Relay last) : Round last → Prop
  | .next r' events => r.Moves budget mode config r' events
  | .done result events => r.Ends budget mode config result events

private theorem explains_passOn
    (quiet : (r.state r.current).isHalted ∨ r.pending = [] ∧ mode ≠ .chain)
    (inner : (r.state r.current).isHalted → r.current ≠ Fin.last last) :
    r.Explains budget mode config (r.passOn (r.drops config)) := by
  unfold passOn
  split
  · next stalled => exact .stalled quiet inner stalled.1 stalled.2
  · next lively =>
    exact .pass quiet inner fun empty => Nat.lt_of_not_le fun idle => lively ⟨empty, idle⟩

/-- Feeding the current amplifier goes on unless the amplifier fails. -/
theorem explains_turnFed {computer : Computer} {signal : Cell} {rest : List Cell}
    {round : Round last} (waiting : r.state r.current = .waiting computer)
    (pending : r.pending = signal :: rest)
    (played : r.turnFed budget config computer signal rest = some round) :
    r.Explains budget mode config round := by
  obtain ⟨turn, resumed, played⟩ := Option.bind_eq_some_iff.mp played
  split at played
  · next failed =>
    cases played
    exact .failed waiting pending resumed failed
  · next awaiting =>
    have left : Slot.State.ofTurn turn = some (.waiting turn.computer) := by
      simp only [Slot.State.ofTurn, awaiting]
    have move : r.Moves budget mode config _ _ := .feed waiting pending resumed left
    cases played
    simpa [Explains, fed, Slot.State.handedOver, Slot.State.isHalted] using move
  · next output halted =>
    have left : Slot.State.ofTurn turn = some (.halted output) := by
      simp only [Slot.State.ofTurn, halted]
    have move : r.Moves budget mode config _ _ := .feed waiting pending resumed left
    cases played
    simpa [Explains, fed, Slot.State.handedOver, Slot.State.isHalted, Slot.State.buffer] using move

private theorem explains_of_round {round : Round last}
    (played : r.round budget mode config = some round) : r.Explains budget mode config round := by
  have state : r.slot.state = r.state r.current := rfl
  unfold Relay.round at played
  rw [state] at played
  split at played
  · next buffer halted =>
    have isHalted : (r.state r.current).isHalted := by
      rw [halted]
      rfl
    rw [turnHalted_eq halted] at played
    cases played
    split
    · next outer => exact .complete isHalted outer
    · next inner => exact explains_passOn (.inl isHalted) fun _ => inner
  · next computer waiting =>
    split at played
    · next signal rest pending => exact explains_turnFed waiting pending played
    · next pending =>
      have alive : (r.state r.current).isHalted = false := by
        rw [waiting]
        rfl
      have silent : r.drops config = [] := if_pos pending
      rw [turnDrained_eq waiting] at played
      cases played
      split
      · next chain => exact .stuck waiting pending chain
      · next feedback =>
        rw [← silent]
        exact explains_passOn (.inr ⟨pending, feedback⟩) (by simp [alive])

/-- A round after which the relay goes on feeds the current amplifier or passes the turn on. -/
theorem moves_of_round {r' : Relay last} {events : List Event}
    (played : r.round budget mode config = some (.next r' events)) :
    r.Moves budget mode config r' events :=
  explains_of_round played

/-- The last round ends in one of four ways. -/
theorem ends_of_round {result : Except Failure Cell} {events : List Event}
    (played : r.round budget mode config = some (.done result events)) :
    r.Ends budget mode config result events :=
  explains_of_round played

end Relay

end CellMachine.Amplifier
