import Mathlib.Algebra.Group.Fin.Basic
import CellMachine.Proofs.Amplifier.Rounds
import CellMachine.Proofs.Machine.Run

/-! # The ledger of a relay

A ledger is kept beside a relay. It notes the values that each amplifier was fed, those that it has
passed on, and those that were dropped because it had halted. What an amplifier has put out since it
was built is what the plain interpreter puts out on the values that it was fed.

The books balance at the head of every round: what went out of one amplifier was fed to the next,
was dropped there, is pending there, or is still in the buffer of the first. An amplifier that is
fed a value reads it, because it waits at an instruction that reads one.
-/

namespace CellMachine

/-- A computer that has been built is about to run a program. -/
theorem Computer.machine_of_build {program : Memory} {settings : List Setting} {computer : Computer}
    (built : Computer.build program settings = .ok computer) :
    computer.machine = .load computer.machine.memory := by
  unfold build at built
  cases setup : Setup.ofSettings settings with
  | error f => simp [setup, bind, Except.bind] at built
  | ok s =>
    simp only [setup, bind, Except.bind, pure, Except.pure, Except.ok.injEq] at built
    rw [← built]
    rfl

namespace Amplifier

/-! ## Amplifiers -/

namespace Slot.State

/-- An amplifier in this state stands where the plain interpreter comes to rest. -/
def StandsAt (o : Interpreter.Outcome) : State → Prop
  | waiting computer => o.ending = .starved ∧ computer.machine.halted = false ∧
      computer.machine.pc = o.final.pc ∧ computer.machine.memory = o.final.memory
  | halted _ => o.ending = .halted

/-- An amplifier that was built with a memory has read all that it was fed, and what it has put out
is what was relayed and what is in its buffer. -/
def Reflects (memory : Memory) (fed relayed : List Cell) (state : State) : Prop :=
  ∃ o, (Interpreter.load memory fed).Rests o ∧ state.StandsAt o ∧ o.final.input = [] ∧
    o.final.output = relayed ++ state.buffer

end Slot.State

/-- A computer that is fed a value stops as the plain interpreter in its place does. -/
theorem rests_of_resume {budget : Nat} {computer : Computer} {value : Cell} {turn : Turn}
    (alive : computer.machine.halted = false) (resumed : computer.resume budget value = some turn) :
    ∃ o, (computer.machine.plain [value]).Rests o ∧
      (∀ f, turn.status = .error f → o.ending = .failed f) ∧
      ∀ state, Slot.State.ofTurn turn = some state →
        state.StandsAt o ∧ state.buffer = o.final.output := by
  obtain ⟨stop, executed, rfl⟩ := Option.map_eq_some_iff.mp resumed
  rw [Machine.execute_eq alive] at executed
  obtain ⟨o, answer, rfl⟩ := Option.map_eq_some_iff.mp executed
  refine ⟨o, Interpreter.rests_of_run answer, ?_⟩
  cases ending : o.ending with
  | halted | failed f =>
    simp [Machine.stopAt, ending, Slot.State.ofTurn, Slot.State.StandsAt, Slot.State.buffer]
  | starved =>
    simp [Machine.stopAt, Machine.moved, Machine.reset, ending, alive, Slot.State.ofTurn,
      Slot.State.StandsAt, Slot.State.buffer]

/-- An amplifier that has been started has been fed its phase setting. -/
theorem Started.reflects {budget index : Nat} {program : Memory} {config : Config} {phase : Cell}
    {slot : Slot} (started : Started budget program config index phase slot) :
    ∃ computer, Computer.build program (config.computerSettings index) = .ok computer ∧
      slot.state.Reflects computer.machine.memory [phase] [] := by
  obtain ⟨computer, turn, built, resumed, awaiting, rfl⟩ := started
  have fresh := Computer.machine_of_build built
  obtain ⟨o, rests, -, left⟩ := rests_of_resume (by rw [fresh]; rfl) resumed
  have waiting : Slot.State.ofTurn turn = some (.waiting turn.computer) := by
    simp only [Slot.State.ofTurn, awaiting]
  obtain ⟨stands, buffer⟩ := left _ waiting
  rw [fresh] at rests
  refine ⟨computer, built, o, rests, stands, ?_, ?_⟩
  · exact (rests.input_of_starved stands.1).1
  · rw [buffer, List.nil_append]

namespace Slot.State.Reflects

variable {memory : Memory} {fed relayed : List Cell}

/-- An amplifier that is fed a value reads it. -/
theorem feed {budget : Nat} {computer : Computer} {value : Cell} {turn : Turn} {state : Slot.State}
    (reflects : (waiting computer).Reflects memory fed relayed)
    (resumed : computer.resume budget value = some turn) (left : ofTurn turn = some state) :
    state.Reflects memory (fed ++ [value]) relayed := by
  obtain ⟨o, rests, ⟨starved, alive, pc, mem⟩, empty, output⟩ := reflects
  obtain ⟨p, turned, -, leaves⟩ := rests_of_resume alive resumed
  obtain ⟨stands, buffer⟩ := leaves state left
  have place : (computer.machine.plain [value]).behind relayed = o.final.feed [value] := by
    simp only [Machine.plain, Interpreter.behind, Interpreter.feed, pc, mem, empty, output,
      Slot.State.buffer, List.nil_append]
  have whole := rests.feed_of_starved starved (place ▸ turned.behind relayed)
  refine ⟨_, whole, ?_, ?_, ?_⟩
  · cases state <;> exact stands
  -- The interpreter starved before, so the next instruction reads the value that has been fed.
  · have reading : (computer.machine.plain [value]).AtInput := by
      obtain ⟨ins, decoded, op⟩ := (rests.input_of_starved starved).2
      exact ⟨ins, by rw [← decoded, ← pc, ← mem]; rfl, op⟩
    have fine : ∀ f, p.ending ≠ .failed f := by
      cases state with
      | waiting computer => simp [stands.1]
      | halted output => simp [show p.ending = .halted from stands]
    exact List.suffix_nil.mp (turned.input_of_atInput reading rfl fine)
  · change relayed ++ p.final.output = _
    rw [buffer]

/-- The output of an amplifier is relayed. -/
theorem relay {state : Slot.State} (reflects : state.Reflects memory fed relayed) :
    state.emptied.Reflects memory fed (relayed ++ state.buffer) := by
  obtain ⟨o, rests, stands, empty, output⟩ := reflects
  refine ⟨o, rests, ?_, empty, ?_⟩
  · cases state <;> exact stands
  · rw [output, buffer_emptied, List.append_nil]

end Slot.State.Reflects

/-! ## Ledgers -/

/-- The values that went through each amplifier of a relay, in order. -/
structure Ledger (last : Nat) where
  /-- The values that the amplifier was fed, the first of them its phase setting. -/
  fed : Fin (last + 1) → List Cell
  /-- The values that it put out and passed on. -/
  relayed : Fin (last + 1) → List Cell
  /-- The values sent to it that were dropped. -/
  dropped : Fin (last + 1) → List Cell

namespace Ledger

variable {last : Nat}

def note (column : Fin (last + 1) → List Cell) (k : Fin (last + 1)) (values : List Cell) :
    Fin (last + 1) → List Cell :=
  Function.update column k (column k ++ values)

def opening (r : Relay last) : Ledger last where
  fed k := [r.phase k]
  relayed _ := []
  dropped _ := []

/-- The ledger after one round of a relay: a signal is fed to the current amplifier if it waits for
one, and otherwise its output is relayed and what is pending is dropped. -/
def after (l : Ledger last) (r : Relay last) : Ledger last :=
  match r.state r.current, r.pending with
  | .waiting _, signal :: _ => { l with fed := note l.fed r.current [signal] }
  | state, pending =>
    { l with
      relayed := note l.relayed r.current state.buffer
      dropped := note l.dropped r.current pending }

theorem after_of_fed {r : Relay last} {computer : Computer} {signal : Cell} {rest : List Cell}
    (waiting : r.state r.current = .waiting computer) (pending : r.pending = signal :: rest)
    (l : Ledger last) : l.after r = { l with fed := note l.fed r.current [signal] } := by
  simp only [after, waiting, pending]

theorem after_of_quiet {r : Relay last} (quiet : (r.state r.current).isHalted ∨ r.pending = [])
    (l : Ledger last) :
    l.after r =
      { l with
        relayed := note l.relayed r.current (r.state r.current).buffer
        dropped := note l.dropped r.current r.pending } := by
  unfold after
  split
  · next waiting pending => simp [waiting, pending, Slot.State.isHalted] at quiet
  · rfl

end Ledger

/-- The relay with which a ring starts to run. -/
def Ring.opening (ring : Ring) : Relay ring.last :=
  { slots := ring.slots, current := ⟨0, ring.last.succ_pos⟩, pending := [ring.config.seed] }

/-- A ring that has not been run plays rounds from its opening. -/
theorem Ring.run_of_fresh {ring : Ring} (fresh : ring.spent = false) (budget : Nat) :
    ring.run budget = (ring.opening.play budget ring.mode ring.config budget #[]).map fun report =>
      (report, { ring with spent := true }) := by
  rw [run, if_neg (by simp [fresh]), Option.map_eq_bind]
  rfl

/-- `ring.Reaches budget r l log`: when the ring runs, the relay `r` is reached at the head of a
round, with the ledger `l`, and `log` has been reported. -/
inductive Ring.Reaches (budget : Nat) (ring : Ring) :
    Relay ring.last → Ledger ring.last → List Event → Prop
  | start : Reaches budget ring ring.opening (.opening ring.opening) []
  | round {r r' : Relay ring.last} {l : Ledger ring.last} {log events : List Event}
      (reached : Reaches budget ring r l log)
      (played : r.round budget ring.mode ring.config = some (.next r' events)) :
      Reaches budget ring r' (l.after r) (log ++ events)

/-- The ring is done with the given report in the round that follows on a relay that it reaches. -/
def Ring.Finishes (budget : Nat) (ring : Ring) (report : Report Cell) : Prop :=
  ∃ r l log events, ring.Reaches budget r l log ∧
    r.round budget ring.mode ring.config = some (.done report.result events) ∧
      report.events = log ++ events

private theorem Ring.Reaches.finishes {budget rounds : Nat} {ring : Ring} {report : Report Cell}
    {r : Relay ring.last} {l : Ledger ring.last} {log : Array Event}
    (reached : ring.Reaches budget r l log.toList)
    (played : r.play budget ring.mode ring.config rounds log = some report) :
    ring.Finishes budget report := by
  induction rounds generalizing r l log with
  | zero => cases played
  | succ rounds ih =>
    unfold Relay.play at played
    split at played
    · cases played
    · next result events done =>
      cases played
      exact ⟨r, l, log.toList, events, reached, done, by simp⟩
    · next r' events next =>
      have reached : ring.Reaches budget r' (l.after r) (log ++ events).toList := by
        simpa using reached.round next
      exact ih reached played

/-- A ring that has not been run before and gives a report reaches the relays that lead to it. -/
theorem Ring.finishes_of_run {budget : Nat} {ring spent : Ring} {report : Report Cell}
    (fresh : ring.spent = false) (ran : ring.run budget = some (report, spent)) :
    ring.Finishes budget report := by
  unfold run at ran
  rw [if_neg (by simp [fresh])] at ran
  obtain ⟨report, answer, ran⟩ := Option.bind_eq_some_iff.mp ran
  cases ran
  have opened : ring.Reaches budget ring.opening (.opening ring.opening) #[].toList := .start
  exact opened.finishes answer

/-! ## Balance -/

namespace Relay

variable {last : Nat}

/-- The values that an amplifier has put out and that have not been relayed. -/
def buffer (r : Relay last) (k : Fin (last + 1)) : List Cell :=
  (r.state k).buffer

/-- The signals sent to an amplifier that it has not been fed: those that were dropped and, when it
has its turn, those that are pending. -/
def due (r : Relay last) (l : Ledger last) (k : Fin (last + 1)) : List Cell :=
  l.dropped k ++ if r.current = k then r.pending else []

/-- The seed is due at the first amplifier when a ring starts to run. -/
theorem due_opening (ring : Ring) (k : Fin (ring.last + 1)) :
    ring.opening.due (.opening ring.opening) k = if k = 0 then [ring.config.seed] else [] := by
  simp [due, Ledger.opening, Ring.opening, eq_comm]

theorem buffer_passed (r : Relay last) (k : Fin (last + 1)) :
    r.passed.buffer k = if k = r.current then [] else r.buffer k := by
  by_cases here : k = r.current <;> simp [buffer, here]

/-- When the turn is passed on, the output of the current amplifier is due at the next. -/
theorem due_passed {r : Relay last} {l : Ledger last}
    (quiet : (r.state r.current).isHalted ∨ r.pending = []) (k : Fin (last + 1)) :
    r.passed.due (l.after r) k =
      r.due l k ++ if k = r.current + 1 then r.buffer r.current else [] := by
  have next : (r.current + 1 = k) = (k = r.current + 1) := propext eq_comm
  have pending : r.passed.pending = r.buffer r.current := rfl
  rw [due, Ledger.after_of_quiet quiet, current_passed, pending]
  by_cases here : k = r.current
  · subst here
    simp [due, Ledger.note, next]
  · simp [due, Ledger.note, next, here, Ne.symm here]

end Relay

/-- The number of signals that an entry reports as dropped at an amplifier. -/
def dropped (amplifier : Nat) : Event → Nat
  | .signalsDropped reported count => if reported = amplifier then count else 0
  | _ => 0

/-- The number of signals that were reported as dropped at an amplifier. -/
def droppedIn (log : List Event) (amplifier : Nat) : Nat :=
  (log.map (dropped amplifier)).sum

variable {last : Nat} {program : Memory} {config : Config} {phases : Fin (last + 1) → Cell}
  {r : Relay last} {l : Ledger last} {log : List Event}

private theorem droppedIn_append (log events : List Event) (amplifier : Nat) :
    droppedIn (log ++ events) amplifier = droppedIn log amplifier + droppedIn events amplifier := by
  simp [droppedIn]

/-- A computer says nothing of dropped signals. -/
theorem droppedIn_turn {budget amplifier : Nat} {computer : Computer} {value : Cell} {turn : Turn}
    (resumed : computer.resume budget value = some turn) : droppedIn turn.events amplifier = 0 := by
  obtain ⟨stop, -, rfl⟩ := Option.map_eq_some_iff.mp resumed
  simp only [Computer.report]
  split <;> simp [droppedIn, Journal.record] <;> split <;> simp [dropped]

/-- Passing the turn on reports the signals that are pending. -/
theorem droppedIn_drops (r : Relay last) (config : Config) (k : Fin (last + 1)) :
    droppedIn (r.drops config) k =
      if config.active ∧ k = r.current then r.pending.length else 0 := by
  unfold Relay.drops
  split
  · next nonePending => simp [droppedIn, nonePending]
  · cases active : config.active <;>
      simp [droppedIn, dropped, Config.record, Journal.record, active, Fin.ext_iff, eq_comm]

/-- The books of a relay balance. -/
structure Balanced (program : Memory) (config : Config) (phases : Fin (last + 1) → Cell)
    (r : Relay last) (l : Ledger last) (log : List Event) : Prop where
  /-- Each amplifier has read what it was fed, and its output was relayed or is in its buffer. -/
  reflects : ∀ k : Fin (last + 1), ∃ computer,
    Computer.build program (config.computerSettings k) = .ok computer ∧
      (r.state k).Reflects computer.machine.memory (l.fed k) (l.relayed k)
  phased : ∀ k, (l.fed k).head? = some (phases k)
  /-- What was relayed to an amplifier was fed to it or is due. -/
  conserved : ∀ k, (if k = 0 then [config.seed] else []) ++ l.relayed (k - 1) =
    (l.fed k).tail ++ r.due l k
  kept : ∀ k, (r.state k).isHalted = false → l.dropped k = []
  logged : ∀ k : Fin (last + 1),
    droppedIn log k = if config.active then (l.dropped k).length else 0

namespace Balanced

theorem feed {budget : Nat} {computer : Computer} {signal : Cell} {rest : List Cell} {turn : Turn}
    {state : Slot.State} {events : List Event} (balanced : Balanced program config phases r l log)
    (waiting : r.state r.current = .waiting computer) (pending : r.pending = signal :: rest)
    (resumed : computer.resume budget signal = some turn)
    (left : Slot.State.ofTurn turn = some state) (silent : ∀ k, droppedIn events k = 0) :
    Balanced program config phases (r.fed state rest) (l.after r) (log ++ events) := by
  have noneDropped : l.dropped r.current = [] := balanced.kept _ (by rw [waiting]; rfl)
  rw [Ledger.after_of_fed waiting pending]
  constructor
  all_goals intro k
  · obtain ⟨built, memory, reflects⟩ := balanced.reflects k
    refine ⟨built, memory, ?_⟩
    by_cases here : k = r.current
    · subst here
      rw [waiting] at reflects
      simpa [Ledger.note] using reflects.feed resumed left
    · simpa [Ledger.note, here] using reflects
  · by_cases here : k = r.current
    · subst here
      simp [Ledger.note, List.head?_append, balanced.phased]
    · simpa [Ledger.note, here] using balanced.phased k
  · rw [balanced.conserved k]
    by_cases here : k = r.current
    · subst here
      obtain ⟨others, fed⟩ := List.head?_eq_some_iff.mp (balanced.phased r.current)
      simp [Relay.due, Relay.fed, Ledger.note, noneDropped, pending, fed]
    · simp [Relay.due, Ledger.note, here, Ne.symm here]
  · by_cases here : k = r.current
    · subst here
      exact fun _ => noneDropped
    · simpa [here] using balanced.kept k
  · rw [droppedIn_append, silent, Nat.add_zero]
    exact balanced.logged k

theorem pass (balanced : Balanced program config phases r l log)
    (quiet : (r.state r.current).isHalted ∨ r.pending = []) :
    Balanced program config phases r.passed (l.after r) (log ++ r.drops config) := by
  have after := Ledger.after_of_quiet quiet l
  constructor
  all_goals intro k
  · obtain ⟨built, memory, reflects⟩ := balanced.reflects k
    refine ⟨built, memory, ?_⟩
    rw [after]
    by_cases here : k = r.current
    · subst here
      simpa [Ledger.note] using reflects.relay
    · simpa [Ledger.note, here] using reflects
  · rw [after]
    exact balanced.phased k
  · have before : k - 1 = r.current ↔ k = r.current + 1 := sub_eq_iff_eq_add
    rw [Relay.due_passed quiet, ← List.append_assoc, after, ← balanced.conserved k]
    by_cases next : k = r.current + 1
    · simp [Ledger.note, next, Relay.buffer]
    · simp [Ledger.note, mt before.mp next, next]
  · rw [after]
    by_cases here : k = r.current
    · subst here
      intro alive
      have nonePending : r.pending = [] := quiet.resolve_left (by simpa using alive)
      simpa [Ledger.note, nonePending] using balanced.kept r.current (by simpa using alive)
    · simpa [Ledger.note, here] using balanced.kept k
  · rw [droppedIn_append, balanced.logged, droppedIn_drops, after]
    by_cases here : k = r.current
    · subst here
      cases config.active <;> simp [Ledger.note]
    · simp [Ledger.note, here]

theorem move {budget : Nat} {mode : Mode} {r' : Relay last} {events : List Event}
    (balanced : Balanced program config phases r l log)
    (moves : r.Moves budget mode config r' events) :
    Balanced program config phases r' (l.after r) (log ++ events) := by
  cases moves with
  | feed waiting pending resumed left =>
    refine balanced.feed waiting pending resumed left fun k => ?_
    rw [droppedIn_append, droppedIn_turn resumed, Nat.zero_add]
    split
    · simp only [droppedIn, Config.record, Journal.record]
      split <;> rfl
    · rfl
  | pass quiet => exact balanced.pass (quiet.imp_right And.left)

end Balanced

/-- The books balance when a ring has been built. -/
theorem Ring.balanced_opening {budget : Nat} {phases : List Cell} {mode : Mode} {ring : Ring}
    {events : List Event}
    (built : Ring.build budget program phases mode config = some ⟨.ok ring, events⟩) :
    Balanced program config ring.opening.phase ring.opening (.opening ring.opening) [] := by
  obtain ⟨-, rfl, -, -, started⟩ := started_of_build built
  constructor
  all_goals intro k
  · obtain ⟨phase, -, started⟩ := started k
    obtain ⟨computer, turn, -, -, -, slot⟩ := id started
    obtain ⟨computer, built, reflects⟩ := started.reflects
    refine ⟨computer, built, ?_⟩
    have same : ring.opening.phase k = phase := by rw [Relay.phase, opening, slot]
    simp only [Ledger.opening, same]
    exact reflects
  · rfl
  · rw [Relay.due_opening]
    simp [Ledger.opening]
  · exact fun _ => rfl
  · simp [droppedIn, Ledger.opening]

/-- The books balance whenever a round begins. -/
theorem Ring.Reaches.balanced {budget started : Nat} {phases : List Cell} {mode : Mode}
    {ring : Ring} {events log : List Event} {r : Relay ring.last} {l : Ledger ring.last}
    (built : Ring.build started program phases mode config = some ⟨.ok ring, events⟩)
    (reached : ring.Reaches budget r l log) :
    Balanced program config ring.opening.phase r l log := by
  obtain ⟨-, sameConfig, -⟩ := started_of_build built
  induction reached with
  | start => exact Ring.balanced_opening built
  | round _ played ih => exact ih.move (sameConfig ▸ Relay.moves_of_round played)

/-- No value is lost, repeated or moved before another between two amplifiers. Whenever a round
begins, all that an amplifier has put out since it was built, which is what the plain interpreter
puts out on the values that it was fed, is what the next amplifier was fed after its phase setting,
what was dropped there, what is pending there, and what is still in the buffer. Signals are dropped
only at amplifiers that have halted, and their number is reported. -/
theorem Ring.signals_conserved {started budget : Nat} {phases : List Cell} {mode : Mode}
    {ring : Ring} {events log : List Event} {r : Relay ring.last} {l : Ledger ring.last}
    (built : Ring.build started program phases mode config = some ⟨.ok ring, events⟩)
    (reached : ring.Reaches budget r l log) :
    ∃ whole : Fin (ring.last + 1) → Interpreter.Outcome,
      (∀ k : Fin (ring.last + 1), ∃ computer,
        Computer.build program (config.computerSettings k) = .ok computer ∧
          (Interpreter.load computer.machine.memory (l.fed k)).Rests (whole k) ∧
            (r.state k).StandsAt (whole k) ∧ (whole k).final.input = [] ∧
              (l.fed k).head? = phases[k.val]?) ∧
      ∀ k : Fin (ring.last + 1),
        (if k = 0 then [config.seed] else []) ++ (whole (k - 1)).final.output =
            (l.fed k).tail ++ l.dropped k ++ (if r.current = k then r.pending else []) ++
              r.buffer (k - 1) ∧
          (l.dropped k ≠ [] → (r.state k).isHalted) ∧
            droppedIn log k = if config.active then (l.dropped k).length else 0 := by
  have balanced := reached.balanced built
  obtain ⟨-, -, -, -, startedAt⟩ := started_of_build built
  choose computer setUp whole rests stands empty output using balanced.reflects
  refine ⟨whole, fun k => ⟨computer k, setUp k, rests k, stands k, empty k, ?_⟩, fun k => ?_⟩
  · obtain ⟨phase, listed, computer, turn, -, -, -, slot⟩ := startedAt k
    rw [balanced.phased, listed, Relay.phase, opening, slot]
  · refine ⟨?_, fun someDropped => ?_, balanced.logged k⟩
    · rw [output, ← List.append_assoc, balanced.conserved k, Relay.due, ← List.append_assoc]
      rfl
    · by_contra alive
      exact someDropped (balanced.kept k (by simpa using alive))

/-- A program that reads its phase setting and a signal, puts the signal out twice and halts. -/
def doubler : Memory :=
  .ofList [3, 11, 3, 12, 4, 12, 4, 12, 99, 0, 0, 0, 0]

theorem Ring.signals_conserved_doubler :
    ∃ ring events, Ring.build 9 doubler [1, 2, 3] .feedback { seed := 5, active := true } =
        some ⟨.ok ring, events⟩ ∧
      ∃ r l log, ring.Reaches 9 r l log ∧ l.dropped 1 = [5] ∧ droppedIn log 1 = 1 ∧
        ∃ memory whole, (Interpreter.load memory (l.fed 0)).Rests whole ∧
          whole.final.output = [5, 5] := by
  obtain ⟨ring, events, built, r, l, log, reached, fed, lost, pending, buffer, reported, later⟩ :
      ∃ ring events, Ring.build 9 doubler [1, 2, 3] .feedback { seed := 5, active := true } =
          some ⟨.ok ring, events⟩ ∧
        ∃ r l log, ring.Reaches 9 r l log ∧ l.fed 1 = [2, 5] ∧ l.dropped 1 = [5] ∧
          (if r.current = 1 then r.pending else []) = [] ∧ r.buffer 0 = [] ∧
            droppedIn log 1 = 1 ∧ (1 : Fin (ring.last + 1)) ≠ 0 :=
    ⟨_, _, rfl, _, _, _, .round (.round (.round (.round .start rfl) rfl) rfl) rfl, rfl, rfl, rfl,
      rfl, rfl, nofun⟩
  refine ⟨ring, events, built, r, l, log, reached, lost, reported, ?_⟩
  obtain ⟨whole, lived, conserved⟩ := signals_conserved built reached
  obtain ⟨computer, -, rests, -⟩ := lived 0
  have balance := (conserved 1).1
  rw [if_neg later, sub_self, fed, lost, pending, buffer] at balance
  exact ⟨computer.machine.memory, whole 0, rests, balance⟩

end Amplifier

end CellMachine
