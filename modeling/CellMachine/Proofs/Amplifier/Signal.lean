import CellMachine.Proofs.Amplifier.Stall

/-! # The signal of a ring

The signal of a ring is the last of all the values that its last amplifier has put out since it was
built: on starting, in turns whose output was relayed long ago, or on halting. The last amplifier
holds the turn when it halts and never gives it away, so the round after that is the last one, and
no amplifier is fed any more.
-/

namespace CellMachine.Amplifier

/-- The result of a ring whose last amplifier, at the given place and with the given phase setting,
has put out the given values before it halted. -/
def signalOf (place : Nat) (phase : Cell) (history : List Cell) : Except Failure Cell :=
  match history.getLast? with
  | some signal => .ok signal
  | none => .error (Cause.noSignal.within (.amplifierWithPhase place phase))

namespace Relay

variable {last : Nat} {budget : Nat} {mode : Mode} {config : Config} {r r' : Relay last}
  {l : Ledger last} {events : List Event}

def Over (r : Relay last) : Prop :=
  (r.state (Fin.last last)).isHalted

def Held (r : Relay last) : Prop :=
  r.Over → r.current = Fin.last last

theorem Held.move (held : r.Held) (moves : r.Moves budget mode config r' events) : r'.Held := by
  intro finished
  unfold Over at finished
  cases moves with
  | feed =>
    rw [current_fed]
    by_contra inner
    rw [state_fed, Function.update_of_ne (Ne.symm inner)] at finished
    exact inner (held finished)
  | pass quiet inner =>
    -- Whoever passes the turn on has not halted in the last place, and nobody halts by passing.
    by_cases outer : r.current = Fin.last last
    · rw [state_passed, ← outer, Function.update_self, Slot.State.isHalted_emptied] at finished
      exact (inner finished outer).elim
    · rw [state_passed, Function.update_of_ne (Ne.symm outer)] at finished
      exact (outer (held finished)).elim

/-- Once the last amplifier has halted, the next round is the last one. -/
theorem Held.ends (held : r.Held) (finished : r.Over) :
    r.Ends budget mode config r.result (r.drops config) := by
  have outer := held finished
  exact .complete (by rw [outer]; exact finished) outer

theorem Held.fedIn_eq_nil (held : r.Held) (finished : r.Over) (budget : Nat) (mode : Mode)
    (config : Config) (rounds : Nat) : r.fedIn budget mode config rounds = [] := by
  cases rounds with
  | zero => rfl
  | succ rounds =>
    have unfed : ¬ r.Feeds := by
      rintro ⟨alive, -⟩
      rw [held finished] at alive
      cases alive.symm.trans finished
    rw [fedIn, round_of_ends (held.ends finished), if_neg unfed]

/-- The result is read off all the values that the last amplifier has put out. -/
theorem Noted.result_eq (noted : r.Noted l) (finished : r.Over) (held : r.Held) :
    r.result = signalOf last (r.phase (Fin.last last)) (r.emitted l (Fin.last last)) := by
  have signal : r.signal = (r.emitted l (Fin.last last)).getLast? := by
    rw [noted, Slot.State.handedOver_of_isHalted finished]
    rfl
  have place : r.place = .amplifierWithPhase last (r.phase (Fin.last last)) := by
    rw [← held finished]
    simp [place, Relay.phase, slot, held finished]
  cases history : (r.emitted l (Fin.last last)).getLast? with
  | none => simp only [result, signalOf, signal, history, place]
  | some value => simp only [result, signalOf, signal, history]

/-- A relay comes to the result of a ring only when the last amplifier has halted. -/
theorem Ends.over_iff {program : Memory} {phases : Fin (last + 1) → Cell} {log : List Event}
    {result : Except Failure Cell} (balanced : Balanced program config phases r l log)
    (held : r.Held) (ends : r.Ends budget mode config result events) :
    r.Over ↔ (∃ signal, result = .ok signal) ∨ ∃ f, result = .error f ∧ f.cause = .noSignal := by
  constructor
  · intro finished
    have played := (round_of_ends ends).symm.trans (round_of_ends (held.ends finished))
    obtain rfl : result = r.result := by
      cases played
      rfl
    unfold Relay.result
    cases r.signal with
    | some signal => exact .inl ⟨signal, rfl⟩
    | none => exact .inr ⟨_, rfl, rfl⟩
  · rintro (⟨signal, rfl⟩ | ⟨f, rfl, silent⟩)
    · exact ends.of_ok.1
    · generalize outcome : Except.error f = result at ends
      cases ends with
      | failed waiting _ resumed failed =>
        cases outcome
        have known := balanced.cause_of_failed waiting resumed failed
        exact (known.ne (by simp [Cause.OfInstruction]) silent).elim
      | stuck | stalled => cases outcome; cases silent
      | complete halted outer =>
        rw [outer] at halted
        exact halted

end Relay

variable {program : Memory} {config : Config} {phases : List Cell} {mode : Mode} {ring : Ring}
  {started budget : Nat} {events log : List Event} {r : Relay ring.last} {l : Ledger ring.last}

private theorem Ring.Reaches.held
    (built : Ring.build started program phases mode config = some ⟨.ok ring, events⟩)
    (reached : ring.Reaches budget r l log) : r.Held := by
  induction reached with
  | start =>
    intro finished
    cases (alive_opening built _).symm.trans finished
  | round _ played ih => exact ih.move (Relay.moves_of_round played)

/-- No round changes a phase setting. -/
theorem Ring.Reaches.phase_eq (reached : ring.Reaches budget r l log) :
    r.phase = ring.opening.phase := by
  induction reached with
  | start => rfl
  | round _ played ih =>
    cases Relay.moves_of_round played with
    | feed => rw [Relay.phase_fed, ih]
    | pass => rw [Relay.phase_passed, ih]

private theorem Ring.Reaches.attains (reached : ring.Reaches budget r l log) : ring.Attains r := by
  induction reached with
  | start => exact .refl
  | round _ played ih => exact ih.tail ⟨budget, _, Relay.moves_of_round played⟩

/-- The amplifiers of a ring have the phase settings that it was built for. -/
theorem Ring.phase_opening
    (built : Ring.build started program phases mode config = some ⟨.ok ring, events⟩)
    (k : Fin (ring.last + 1)) : phases[k.val]? = some (ring.opening.phase k) := by
  obtain ⟨-, -, -, -, startedAt⟩ := started_of_build built
  obtain ⟨phase, listed, _, _, -, -, -, slot⟩ := startedAt k
  rw [listed, Relay.phase, opening, slot]

/-- The signal of a ring is the last value that its last amplifier ever put out. A run ends with a
signal, or for want of one, exactly when the last amplifier has halted. Whenever it has halted, the
next round is the last one and no amplifier is fed any more. The ring then comes to the last of all
the values that the plain interpreter puts out on what that amplifier was fed from its phase setting
on, and there is no signal if there is no such value. -/
theorem Ring.signal_last_emitted
    (built : Ring.build started program phases mode config = some ⟨.ok ring, events⟩) :
    (∀ budget report spent, ring.run budget = some (report, spent) →
      ∃ r l log reported, ring.Reaches budget r l log ∧
        r.round budget mode config = some (.done report.result reported) ∧
          (r.Over ↔ (∃ signal, report.result = .ok signal) ∨
            ∃ f, report.result = .error f ∧ f.cause = .noSignal)) ∧
    ∀ budget r l log, ring.Reaches budget r l log → r.Over →
      ∃ computer whole phase,
        Computer.build program (config.computerSettings ring.last) = .ok computer ∧
        phases.getLast? = some phase ∧ (l.fed (Fin.last ring.last)).head? = some phase ∧
        (Interpreter.load computer.machine.memory (l.fed (Fin.last ring.last))).Rests whole ∧
        whole.ending = .halted ∧ whole.final.output = r.emitted l (Fin.last ring.last) ∧
        (∀ budget, r.round budget mode config =
          some (.done (signalOf ring.last phase whole.final.output) (r.drops config))) ∧
        (∀ budget rounds, r.fedIn budget mode config rounds = []) ∧
        ∃ budget report spent, ring.run budget = some (report, spent) ∧
          report.result = signalOf ring.last phase whole.final.output := by
  obtain ⟨rfl, rfl, fresh, length, -⟩ := started_of_build built
  constructor
  · intro budget report spent ran
    obtain ⟨r, l, log, reported, reached, done, -⟩ := finishes_of_run fresh ran
    have ends := Relay.ends_of_round done
    exact ⟨r, l, log, reported, reached, done,
      ends.over_iff (reached.balanced built) (reached.held built)⟩
  · intro budget r l log reached finished
    have held := reached.held built
    have balanced := reached.balanced built
    obtain ⟨noted, -⟩ := reached.tracked built
    obtain ⟨computer, setUp, whole, rests, stands, -, output⟩ :=
      balanced.reflects (Fin.last ring.last)
    have halted : whole.ending = .halted := by
      unfold Relay.Over at finished
      cases state : r.state (Fin.last ring.last) with
      | waiting computer => simp [state, Slot.State.isHalted] at finished
      | halted buffer =>
        rw [state] at stands
        exact stands
    have result : r.result =
        signalOf ring.last (ring.opening.phase (Fin.last ring.last)) whole.final.output := by
      rw [noted.result_eq finished held, reached.phase_eq, output]
      rfl
    have phase : phases.getLast? = some (ring.opening.phase (Fin.last ring.last)) := by
      rw [List.getLast?_eq_getElem?, length]
      exact phase_opening built (Fin.last ring.last)
    refine ⟨computer, whole, _, setUp, phase, balanced.phased _, rests, halted, output, ?_,
      fun budget => held.fedIn_eq_nil finished budget _ _, ?_⟩
    · intro budget
      rw [Relay.round_of_ends (held.ends finished), result]
    · rw [← result]
      exact exists_run fresh ⟨r, budget, _, reached.attains, held.ends finished⟩

/-- A program that reads its phase setting and a signal, puts the signal out, reads once more and
halts. -/
def earlySender : Memory :=
  .ofList [3, 9, 3, 9, 4, 9, 3, 9, 99, 0]

/-- A program that reads its phase setting and a signal and halts. -/
def mute : Memory :=
  .ofList [3, 5, 3, 5, 99, 0]

theorem Ring.signal_last_emitted_earlySender_mute :
    (∃ ring events, Ring.build 9 earlySender [1] .feedback { seed := 5 } =
        some ⟨.ok ring, events⟩ ∧
      ∃ r l log, ring.Reaches 9 r l log ∧ r.Over ∧ r.buffer (Fin.last ring.last) = [] ∧
        ∃ budget report spent, ring.run budget = some (report, spent) ∧ report.result = .ok 5) ∧
    ∃ ring events report spent f, Ring.build 9 mute [1] .chain {} = some ⟨.ok ring, events⟩ ∧
      ring.run 9 = some (report, spent) ∧ report.result = .error f ∧ f.cause = .noSignal ∧
        ∃ r l log, ring.Reaches 9 r l log ∧ r.Over := by
  constructor
  · obtain ⟨ring, events, built, r, l, log, reached, finished, buffer, emitted⟩ :
        ∃ ring events, Ring.build 9 earlySender [1] .feedback { seed := 5 } =
            some ⟨.ok ring, events⟩ ∧
          ∃ r l log, ring.Reaches 9 r l log ∧ r.Over ∧ r.buffer (Fin.last ring.last) = [] ∧
            r.emitted l (Fin.last ring.last) = [5] :=
      ⟨_, _, rfl, _, _, _, .round (.round (.round .start rfl) rfl) rfl, rfl, rfl, rfl⟩
    obtain ⟨_, whole, _, -, -, -, -, -, output, -, -, budget, report, spent, ran, result⟩ :=
      (signal_last_emitted built).2 9 r l log reached finished
    rw [output, emitted] at result
    exact ⟨ring, events, built, r, l, log, reached, finished, buffer, budget, report, spent, ran,
      result⟩
  · obtain ⟨ring, events, report, spent, f, built, ran, failed, silent⟩ :
        ∃ ring events report spent f, Ring.build 9 mute [1] .chain {} =
            some ⟨.ok ring, events⟩ ∧
          ring.run 9 = some (report, spent) ∧ report.result = .error f ∧ f.cause = .noSignal :=
      ⟨_, _, _, _, _, rfl, rfl, rfl, rfl⟩
    obtain ⟨r, l, log, _, reached, -, finished⟩ := (signal_last_emitted built).1 9 report spent ran
    exact ⟨ring, events, report, spent, f, built, ran, failed, silent, r, l, log, reached,
      finished.mpr (.inr ⟨f, failed, silent⟩)⟩

end CellMachine.Amplifier
