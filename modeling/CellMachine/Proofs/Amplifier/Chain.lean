import CellMachine.Proofs.Amplifier.Ledger
import CellMachine.Proofs.Amplifier.Progress
import CellMachine.Proofs.Machine.Padding
import CellMachine.Proofs.Machine.Session

/-! # A chain is a composition of runs

In a chain each amplifier runs to its end before the next, so the chain does what running the
program by hand would do: once for each phase setting, on the setting and the output of the run
before. The turn of one amplifier follows the plain interpreter on its setting and all that is
pending. An amplifier that halts hands its whole output on, one that starves is stuck, and one that
fails ends the chain.
-/

namespace CellMachine

namespace Amplifier

open Relation

/-! ## The turn of an amplifier -/

/-- A computer that waits is given all of a list, one value after the other, and comes to rest as
the plain interpreter does. -/
structure Awaits (computer : Computer) (input : List Cell) (o : Interpreter.Outcome) : Prop where
  alive : computer.machine.halted = false
  reading : (computer.machine.plain []).AtInput
  rests : (computer.machine.plain input).Rests o

/-- A computer that waits does not come to rest by itself. -/
theorem Awaits.starved {computer : Computer} {o : Interpreter.Outcome}
    (awaits : Awaits computer [] o) : o.ending = .starved := by
  have stopped : (computer.machine.plain []).step = .error .starved :=
    (Interpreter.step_eq_starved_iff _).mpr ⟨rfl, awaits.reading⟩
  rw [awaits.rests.unique (.rest stopped)]

/-- A computer that is given the first value of a list waits for the others, or it has halted or
failed and does not look at them. -/
theorem Awaits.resume {computer : Computer} {value : Cell} {rest : List Cell}
    {o : Interpreter.Outcome} (awaits : Awaits computer (value :: rest) o) :
    ∃ budget turn, computer.resume budget value = some turn ∧
      ((∃ q, turn.status = .ok .awaiting ∧ Awaits turn.computer rest q ∧
          q.ending = o.ending ∧ q.final.output = o.final.output) ∨
        (o.ending = .halted ∧ turn.status = .ok (.halted o.final.output)) ∨
        ∃ f, o.ending = .failed f ∧ turn.status = .error f) := by
  have whole : ((computer.machine.plain [value]).feed rest).Rests o := awaits.rests
  obtain ⟨p, first, goesOn⟩ := whole.split
  obtain ⟨budget, answer⟩ := Interpreter.rests_iff.mp first
  have executed : computer.machine.execute budget (some value) =
      some (computer.machine.reset.stopAt p) := by
    rw [Machine.execute_eq awaits.alive, Option.toList_some, answer, Option.map_some]
  refine ⟨budget, _, Option.map_eq_some_iff.mpr ⟨_, executed, rfl⟩, ?_⟩
  obtain ⟨starved, q, further, rfl⟩ | ⟨fed, rfl⟩ := goesOn
  · refine .inl ⟨q, by simp [Machine.stopAt, starved], ⟨?_, ?_, ?_⟩, rfl, rfl⟩
    · simp [Machine.stopAt, starved, Machine.moved, Machine.reset, awaits.alive]
    · obtain ⟨ins, decoded, op⟩ := (first.input_of_starved starved).2
      refine ⟨ins, ?_, op⟩
      simpa [Machine.stopAt, starved, Machine.plain, Machine.moved] using decoded
    · have place : p.final.feed rest =
          (computer.machine.reset.stopAt p).machine.plain rest := by
        simp [Machine.stopAt, starved, Machine.plain, Machine.moved, Interpreter.feed,
          (first.input_of_starved starved).1]
      exact place ▸ further
  · cases ending : p.ending with
    | starved => exact (fed ending).elim
    | halted => exact .inr (.inl ⟨rfl, by simp [Machine.stopAt, ending, Interpreter.feed]⟩)
    | failed f => exact .inr (.inr ⟨f, rfl, by simp [Machine.stopAt, ending]⟩)

namespace Relay

variable {last : Nat} {mode : Mode} {config : Config} {r : Relay last} {computer : Computer}
  {o : Interpreter.Outcome}

/-- The relay `r'` is what `r` goes on to while its current amplifier keeps the turn and is fed all
that is pending, when the plain interpreter in its place comes to rest with the given outcome. -/
structure Turned (mode : Mode) (config : Config) (o : Interpreter.Outcome) (r r' : Relay last) :
    Prop where
  goes : ReflTransGen (Goes mode config) r r'
  current : r'.current = r.current
  phase : r'.phase = r.phase
  halted : o.ending = .halted →
    r'.state = Function.update r.state r.current (.halted o.final.output) ∧ r'.idle = 0 ∧
      r'.signal =
        if r.current = Fin.last last then o.final.output.getLast?.or r.signal else r.signal
  starved : o.ending = .starved → r'.pending = [] ∧ ∃ c, r'.state r'.current = .waiting c
  failed : ∀ f, o.ending = .failed f →
    ∃ budget events, r'.Ends budget mode config (.error (f.within r'.place)) events

/-- A turn goes on after the current amplifier was fed a signal and waits again. -/
theorem Turned.after_fed {r' : Relay last} {rest : List Cell} {q : Interpreter.Outcome}
    (move : r.Goes mode config (r.fed (.waiting computer) rest))
    (ending : q.ending = o.ending) (output : q.final.output = o.final.output)
    (turned : (r.fed (.waiting computer) rest).Turned mode config q r') :
    r.Turned mode config o r' where
  goes := .head move turned.goes
  current := turned.current.trans (current_fed ..)
  phase := turned.phase.trans (phase_fed ..)
  halted halted := by
    obtain ⟨state, idle, signal⟩ := turned.halted (ending.trans halted)
    refine ⟨?_, idle, ?_⟩
    · rw [state, state_fed, current_fed, Function.update_idem, output]
    · rw [signal, signal_fed, current_fed, output]
      simp [Slot.State.handedOver]
  starved starved := turned.starved (ending.trans starved)
  failed f failed := turned.failed f (ending.trans failed)

/-- The turn of an amplifier that waits comes to an end. -/
theorem exists_turned (mode : Mode) (config : Config)
    (waiting : r.state r.current = .waiting computer) (awaits : Awaits computer r.pending o) :
    ∃ r', r.Turned mode config o r' := by
  generalize pending : r.pending = input at awaits
  induction input generalizing r computer o with
  | nil =>
    have starved := awaits.starved
    exact ⟨r, .refl, rfl, rfl, by simp [starved], fun _ => ⟨pending, computer, waiting⟩,
      by simp [starved]⟩
  | cons signal rest ih =>
    obtain ⟨budget, turn, resumed, ⟨q, status, further, ending, output⟩ | ⟨halted, status⟩ |
      ⟨f, failed, status⟩⟩ := awaits.resume
    · have left : Slot.State.ofTurn turn = some (.waiting turn.computer) := by
        simp only [Slot.State.ofTurn, status]
      have move : r.Moves budget mode config _ _ := .feed waiting pending resumed left
      have there : (r.fed (.waiting turn.computer) rest).state
          (r.fed (.waiting turn.computer) rest).current = .waiting turn.computer := by simp
      obtain ⟨r', turned⟩ := ih there rfl further
      exact ⟨r', turned.after_fed ⟨budget, _, move⟩ ending output⟩
    · have left : Slot.State.ofTurn turn = some (.halted o.final.output) := by
        simp only [Slot.State.ofTurn, status]
      have move : r.Moves budget mode config _ _ := .feed waiting pending resumed left
      refine ⟨_, .single ⟨budget, _, move⟩, current_fed .., phase_fed .., fun _ => ?_,
        by simp [halted], by simp [halted]⟩
      exact ⟨state_fed .., rfl, signal_fed ..⟩
    · refine ⟨r, .refl, rfl, rfl, by simp [failed], by simp [failed], ?_⟩
      intro g same
      cases failed.symm.trans same
      exact ⟨budget, _, .failed waiting pending resumed status⟩

end Relay

/-! ## Started amplifiers -/

variable {program : Memory} {config : Config} {phases : List Cell} {ring : Ring} {started : Nat}
  {events : List Event}

/-- Without settings for the computers of a ring, each of them has the program as it is. -/
theorem memory_of_build {index : Nat} {computer : Computer} (noSettings : config.settings = [])
    (built : Computer.build program (config.computerSettings index) = .ok computer) :
    computer.machine.memory = program := by
  have settings : config.computerSettings index =
      [.journal config.active, .name ("amp" ++ countText index)] := by
    rw [Config.computerSettings, noSettings, List.append_nil]
  rw [settings] at built
  cases built
  exact program.grow_zero

/-- An amplifier that has been started goes on as the program does by itself when it is run on the
phase setting and an input. -/
theorem Started.awaits {index : Nat} {phase : Cell} {slot : Slot} {input : List Cell}
    {result : Except Failure (List Cell)} (noSettings : config.settings = [])
    (begun : Started started program config index phase slot)
    (answer : ∃ budget, exec budget program (phase :: input) = some result) :
    ∃ computer o, slot.state = .waiting computer ∧ Awaits computer input o ∧ o.result = result := by
  obtain ⟨built, memory, o, rests, stands, empty, output⟩ := begun.reflects
  obtain ⟨_, turn, -, -, -, rfl⟩ := begun
  obtain ⟨starved, alive, pc, same⟩ := stands
  rw [memory_of_build noSettings memory] at rests
  obtain ⟨w, whole, rfl⟩ := (exec_eq_some_iff ..).mp answer
  have place : turn.computer.machine.plain = o.final.feed := by
    funext more
    simp only [Machine.plain, Interpreter.feed, pc, same, empty, output, Slot.State.buffer,
      List.nil_append]
  have fed : ((Interpreter.load program [phase]).feed input).Rests w := whole
  obtain ⟨p, first, ⟨-, q, further, rfl⟩ | ⟨fed, -⟩⟩ := fed.split
  · obtain rfl := rests.unique first
    refine ⟨turn.computer, q, rfl, ⟨alive, ?_, place ▸ further⟩, rfl⟩
    obtain ⟨ins, decoded, op⟩ := (rests.input_of_starved starved).2
    exact ⟨ins, by rw [place]; exact decoded, op⟩
  · exact (fed (rests.unique first ▸ starved)).elim

/-! ## Chains -/

/-- The inputs of the runs of a program that make up a chain, when the first `n` runs succeed: the
first input is the seed, and the output of each run on its phase setting and its input is the input
of the next. -/
structure Composed (program : Memory) (seed : Cell) (phases : List Cell) (inputs : ℕ → List Cell)
    (n : ℕ) : Prop where
  first : inputs 0 = [seed]
  runs : ∀ k < n, ∀ phase, phases[k]? = some phase →
    ∃ budget, exec budget program (phase :: inputs k) = some (.ok (inputs (k + 1)))

/-- The amplifier at a place of a chain has its turn with the given input, and neither it nor those
behind it have been fed. -/
structure AtTurn (ring : Ring) (place : ℕ) (input : List Cell) (r : Relay ring.last) : Prop where
  current : r.current = place
  pending : r.pending = input
  phase : r.phase = ring.opening.phase
  waiting : ∀ k, r.current ≤ k → r.state k = ring.opening.state k
  idle : r.idle ≤ 1
  signal : r.signal = none

private theorem atTurn_opening (ring : Ring) : AtTurn ring 0 [ring.config.seed] ring.opening :=
  ⟨rfl, rfl, rfl, fun _ _ => rfl, Nat.zero_le 1, rfl⟩

namespace AtTurn

variable {place : ℕ} {input : List Cell} {r : Relay ring.last} {phase : Cell}
  (noSettings : config.settings = [])
  (built : Ring.build started program phases .chain config = some ⟨.ok ring, events⟩)

include noSettings built

/-- The turn of an amplifier of a chain follows the run of the program by itself. -/
theorem turn {result : Except Failure (List Cell)} (atTurn : AtTurn ring place input r)
    (listed : phases[place]? = some phase)
    (answer : ∃ budget, exec budget program (phase :: input) = some result) :
    ∃ o r', o.result = result ∧ (∀ f, o.ending = .failed f → f.cause ≠ .inputExhausted) ∧
      r.Turned .chain config o r' ∧ r'.place = .amplifierWithPhase place phase := by
  obtain ⟨-, -, -, -, begun⟩ := Ring.started_of_build built
  obtain ⟨found, listedToo, begun⟩ := begun r.current
  obtain rfl : found = phase := by
    rw [atTurn.current, listed] at listedToo
    exact (Option.some.inj listedToo).symm
  obtain ⟨computer, o, waiting, awaits, rfl⟩ := begun.awaits noSettings answer
  have there : r.state r.current = .waiting computer :=
    (atTurn.waiting r.current le_rfl).trans waiting
  obtain ⟨r', turned⟩ := Relay.exists_turned .chain config there (atTurn.pending ▸ awaits)
  refine ⟨o, r', rfl, fun _ => awaits.rests.cause_ne_inputExhausted, turned, ?_⟩
  obtain ⟨_, _, -, -, -, slot⟩ := begun
  have own : r'.phase r'.current = found := by
    rw [turned.phase, turned.current, atTurn.phase, Relay.phase, Ring.opening, slot]
  rw [← own, ← atTurn.current, ← turned.current]
  rfl

/-- The turn of an amplifier on which the program succeeds ends with all of its output handed over.
-/
theorem halt {output : List Cell} (atTurn : AtTurn ring place input r)
    (listed : phases[place]? = some phase)
    (answer : ∃ budget, exec budget program (phase :: input) = some (.ok output)) :
    ∃ r', ReflTransGen (Relay.Goes .chain config) r r' ∧ r'.current = r.current ∧
      r'.phase = r.phase ∧ r'.place = .amplifierWithPhase place phase ∧
      r'.state = Function.update r.state r.current (.halted output) ∧ r'.idle = 0 ∧
      r'.signal = if r.current = Fin.last ring.last then output.getLast? else none := by
  obtain ⟨o, r', success, -, turned, own⟩ := atTurn.turn noSettings built listed answer
  have halted : o.ending = .halted ∧ o.final.output = output := by
    cases ending : o.ending <;> simp_all [Interpreter.Outcome.result]
  obtain ⟨state, idle, signal⟩ := turned.halted halted.1
  rw [halted.2] at state signal
  rw [atTurn.signal, Option.or_none] at signal
  exact ⟨r', turned.goes, turned.current, turned.phase, own, state, idle, signal⟩

/-- The turn comes to the next amplifier with the output of the program. -/
theorem advance {output : List Cell} (atTurn : AtTurn ring place input r)
    (listed : phases[place]? = some phase)
    (answer : ∃ budget, exec budget program (phase :: input) = some (.ok output))
    (inner : place < ring.last) :
    ∃ r', ReflTransGen (Relay.Goes .chain config) r r' ∧ AtTurn ring (place + 1) output r' := by
  obtain ⟨middle, goes, current, phase, -, state, idle, signal⟩ :=
    atTurn.halt noSettings built listed answer
  have notLast : middle.current ≠ Fin.last ring.last := by
    intro outer
    have same := congrArg Fin.val outer
    rw [current, atTurn.current, Fin.val_last] at same
    omega
  have own : middle.state middle.current = .halted output := by
    rw [state, current, Function.update_self]
  have move : middle.Moves 0 .chain config middle.passed (middle.drops config) :=
    .pass (.inl (by rw [own]; rfl)) (fun _ => notLast) fun _ => by omega
  have next : (middle.passed.current : ℕ) = place + 1 := by
    rw [Relay.current_passed, current, Fin.val_add_one, if_neg (current ▸ notLast), atTurn.current]
  refine ⟨middle.passed, goes.tail ⟨0, _, move⟩, next, ?_, ?_, ?_, ?_, ?_⟩
  · change (middle.state middle.current).buffer = output
    rw [own]
    rfl
  · rw [Relay.phase_passed, phase, atTurn.phase]
  · intro k behind
    have later : place < k := by
      have bound : (middle.passed.current : ℕ) ≤ k := behind
      omega
    have other : k ≠ r.current := by
      rintro rfl
      exact absurd atTurn.current (by omega)
    rw [Relay.state_passed, current, Function.update_of_ne other, state,
      Function.update_of_ne other]
    refine atTurn.waiting k (Fin.le_def.mpr ?_)
    rw [atTurn.current]
    omega
  · simp only [Relay.passed, idle]
    split <;> omega
  · rw [Relay.signal_passed, if_neg notLast, signal, if_neg (current ▸ notLast)]

/-- The last amplifier of a chain ends it with the last value of the output of the program. -/
theorem finish {output : List Cell} (atTurn : AtTurn ring place input r)
    (listed : phases[place]? = some phase)
    (answer : ∃ budget, exec budget program (phase :: input) = some (.ok output))
    (outer : place = ring.last) :
    r.ComesTo .chain config (match output.getLast? with
      | some signal => .ok signal
      | none => .error (Cause.noSignal.within (.amplifierWithPhase place phase))) := by
  obtain ⟨final, goes, current, -, own, state, -, signal⟩ :=
    atTurn.halt noSettings built listed answer
  have isLast : r.current = Fin.last ring.last := Fin.ext (atTurn.current.trans outer)
  rw [if_pos isLast] at signal
  have ends : final.Ends 0 .chain config final.result (final.drops config) := by
    refine .complete ?_ (current.trans isLast)
    rw [state, current, Function.update_self]
    rfl
  rw [Relay.result, signal, own] at ends
  exact ⟨final, 0, _, goes, ends⟩

end AtTurn

/-- The turn comes to every amplifier before which the program succeeds. -/
theorem Composed.atTurn {inputs : ℕ → List Cell} {place : ℕ} (noSettings : config.settings = [])
    (built : Ring.build started program phases .chain config = some ⟨.ok ring, events⟩)
    (composed : Composed program config.seed phases inputs place) (inside : place ≤ ring.last) :
    ∃ r, ReflTransGen (Relay.Goes .chain config) ring.opening r ∧
      AtTurn ring place (inputs place) r := by
  obtain ⟨-, sameConfig, -, length, -⟩ := Ring.started_of_build built
  induction place with
  | zero =>
    rw [composed.first, ← sameConfig]
    exact ⟨ring.opening, .refl, atTurn_opening ring⟩
  | succ place ih =>
    have before : Composed program config.seed phases inputs place :=
      ⟨composed.first, fun k below => composed.runs k (Nat.lt_succ_of_lt below)⟩
    obtain ⟨r, goes, atTurn⟩ := ih before (Nat.le_of_succ_le inside)
    have listed : phases[place]? = some phases[place] := List.getElem?_eq_getElem (by omega)
    have answer := composed.runs place place.lt_succ_self _ listed
    obtain ⟨r', further, atNext⟩ := atTurn.advance noSettings built listed answer inside
    exact ⟨r', goes.trans further, atNext⟩

/-- A ring that has not been run comes to the result of its relay. -/
theorem Ring.exists_run {result : Except Failure Cell} (fresh : ring.spent = false)
    (comes : ring.opening.ComesTo ring.mode ring.config result) :
    ∃ budget report spent, ring.run budget = some (report, spent) ∧ report.result = result := by
  obtain ⟨budget, report, played, same⟩ := comes.play #[]
  refine ⟨budget, report, { ring with spent := true }, ?_, same⟩
  rw [Ring.run, if_neg (by simp [fresh])]
  exact Option.bind_eq_some_iff.mpr ⟨report, played, rfl⟩

end Amplifier

end CellMachine
