import Mathlib.Data.Option.Basic
import CellMachine.Console.Prompt
import CellMachine.Console.Session
import CellMachine.Proofs.Machine.Session
import CellMachine.Proofs.Machine.Steady

/-! # Sessions follow the plain interpreter

A session collects the output of its computer each time the computer stops. Collecting changes
nothing in what the machine does next, so what a session has collected in the end is the whole
output of the plain interpreter on the values that were fed, and the session ends as the program
does when it is run on these values at once. It does not matter where the values come from: a
session that asks for the rest of its values goes the same way as one that has them from the start.
-/

namespace CellMachine

def Turn.stop (turn : Turn) : Stop :=
  ⟨turn.computer.machine, turn.status⟩

/-- A computer that is set going stops where the plain interpreter comes to rest. -/
theorem Computer.rests_of_execute {c : Computer} {budget : Nat} {input : Option Cell} {turn : Turn}
    (alive : c.machine.halted = false) (executed : c.execute budget input = some turn) :
    ∃ o, (c.machine.plain input.toList).Rests o ∧ turn.stop = c.machine.reset.stopAt o := by
  obtain ⟨stop, stopped, rfl⟩ := Option.map_eq_some_iff.mp executed
  rw [Machine.execute_eq alive] at stopped
  obtain ⟨o, answer, rfl⟩ := Option.map_eq_some_iff.mp stopped
  exact ⟨o, Interpreter.rests_of_run answer, rfl⟩

/-- A computer stops if the plain interpreter in its place comes to rest. -/
theorem Computer.execute_of_rests {c : Computer} {input : Option Cell} {o : Interpreter.Outcome}
    (alive : c.machine.halted = false) (rests : (c.machine.plain input.toList).Rests o) :
    ∃ budget turn, c.execute budget input = some turn ∧ turn.stop = c.machine.reset.stopAt o := by
  obtain ⟨budget, answer⟩ := Interpreter.rests_iff.mp rests
  have stopped : c.machine.execute budget input = some (c.machine.reset.stopAt o) := by
    rw [Machine.execute_eq alive, answer, Option.map_some]
  exact ⟨budget, _, Option.map_eq_some_iff.mpr ⟨_, stopped, rfl⟩, rfl⟩

namespace Console

variable {σ : Type} {budget : Nat} {prompt : Option (Prompt σ)}

/-- What a session comes to: its output if the computer halted, and the failure otherwise. -/
def Ended.result (ended : Ended σ) : Except Failure (List Cell) :=
  match ended.failure with
  | none => .ok ended.output
  | some f => .error f

/-- A session has ended where the plain interpreter comes to rest, with all of its output. -/
structure Ended.Shows (o : Interpreter.Outcome) (ended : Ended σ) : Prop where
  output : ended.output = o.final.output
  result : ended.result = o.result
  pc : ended.computer.machine.pc = o.final.pc
  memory : ended.computer.machine.memory = o.final.memory

theorem Ended.Shows.later {o : Interpreter.Outcome} {ended : Ended σ} (shows : ended.Shows o)
    (n : Nat) : ended.Shows (o.later n) :=
  ⟨shows.output, shows.result, shows.pc, shows.memory⟩

namespace Session

/-- The session once the output of a computer that waits has been collected. -/
def collect (s : Session σ) (turn : Turn) : Session σ :=
  { s with
    log := s.log ++ turn.events
    steps := s.steps + turn.computer.takeOutput.2.machine.steps
    output := s.output ++ turn.computer.takeOutput.1 }

variable {turns : Nat} {s : Session σ} {turn : Turn} {ended : Ended σ}

theorem goOn_of_failed {f : Failure} (failed : turn.status = .error f) :
    goOn budget prompt (turns + 1) s turn =
      some ({ s with log := s.log ++ turn.events }.finish turn.computer.takeOutput.2
        turn.computer.machine.output.toList (some f)) := by
  simp only [goOn, failed]
  rfl

theorem goOn_of_halted {output : List Cell} (halted : turn.status = .ok (.halted output)) :
    goOn budget prompt (turns + 1) s turn =
      some ({ s with
        log := s.log ++ turn.events
        steps := s.steps + turn.computer.machine.steps }.finish turn.computer output none) := by
  simp only [goOn, halted]

/-- A session that has no value for its computer ends with the output collected. -/
theorem goOn_of_refused {f : Failure} {next : Session σ} (awaiting : turn.status = .ok .awaiting)
    (refused : (s.collect turn).nextValue prompt turn.computer.takeOutput.2.machine =
      (.error f, next)) :
    goOn budget prompt (turns + 1) s turn =
      some (next.finish turn.computer.takeOutput.2 [] (some f)) := by
  unfold collect at refused
  simp only [goOn, awaiting, refused]

/-- A session that has a value for its computer goes on with it once the output is collected. -/
theorem goOn_of_supplied {value : Cell} {next : Session σ} (awaiting : turn.status = .ok .awaiting)
    (supplied : (s.collect turn).nextValue prompt turn.computer.takeOutput.2.machine =
      (.ok value, next)) :
    goOn budget prompt (turns + 1) s turn =
      (turn.computer.takeOutput.2.resume budget value).bind (goOn budget prompt turns next) := by
  unfold collect at supplied
  simp only [goOn, awaiting, supplied]
  cases turn.computer.takeOutput.2.resume budget value <;> rfl

/-! ## Without anybody to ask -/

/-- The plain interpreter in the place of a machine whose output was collected when it waited. -/
theorem plain_collected {o : Interpreter.Outcome} (m : Machine) (empty : o.final.input = [])
    {value : Cell} {rest : List Cell} :
    (({ m.moved o.final o.steps with output := #[] }.plain [value]).feed rest).behind
      o.final.output = o.final.feed (value :: rest) := by
  simp [Machine.plain, Machine.moved, Interpreter.feed, Interpreter.behind, empty]

/-- A session without anybody to ask ends where the plain interpreter comes to rest on the values
that are left, with the output collected before in front. -/
theorem shows_of_goOn {m : Machine} {input : List Cell} {o : Interpreter.Outcome}
    (alive : m.halted = false) (rests : (m.plain input).Rests o) (stopped : turn.stop = m.stopAt o)
    (answer : goOn budget none turns s turn = some ended) :
    ∃ whole, ((m.plain input).feed s.inputs).Rests whole ∧
      ended.Shows (whole.behind s.output.toList) := by
  induction turns generalizing s turn m input o with
  | zero => cases answer
  | succ turns ih =>
    obtain ⟨⟨machine, journal⟩, status, events⟩ := turn
    cases ending : o.ending with
    | failed f =>
      simp only [Turn.stop, Machine.stopAt, ending, Stop.mk.injEq] at stopped
      obtain ⟨rfl, rfl⟩ := stopped
      rw [goOn_of_failed rfl] at answer
      cases answer
      refine ⟨_, rests.feed (by simp [ending]) s.inputs, ?_, ?_, rfl, rfl⟩
      · simp [finish, Interpreter.Outcome.behind, Interpreter.behind, Interpreter.feed,
          Machine.moved]
      · simp [Ended.result, finish, Interpreter.Outcome.behind, Interpreter.Outcome.result, ending]
    | halted =>
      simp only [Turn.stop, Machine.stopAt, ending, Stop.mk.injEq] at stopped
      obtain ⟨rfl, rfl⟩ := stopped
      rw [goOn_of_halted rfl] at answer
      cases answer
      refine ⟨_, rests.feed (by simp [ending]) s.inputs, ?_, ?_, rfl, rfl⟩
      · simp [finish, Interpreter.Outcome.behind, Interpreter.behind, Interpreter.feed]
      · simp [Ended.result, finish, Interpreter.Outcome.behind, Interpreter.Outcome.result, ending,
          Interpreter.behind, Interpreter.feed]
    | starved =>
      simp only [Turn.stop, Machine.stopAt, ending, Stop.mk.injEq] at stopped
      obtain ⟨rfl, rfl⟩ := stopped
      obtain ⟨empty, -⟩ := rests.input_of_starved ending
      cases inputs : s.inputs with
      | nil =>
        rw [goOn_of_refused rfl (by simp only [nextValue, collect, inputs]; rfl)] at answer
        cases answer
        refine ⟨o, by simpa [Interpreter.feed] using rests, ?_, ?_, rfl, rfl⟩
        · simp [finish, Interpreter.Outcome.behind, Interpreter.behind, Machine.moved,
            Computer.takeOutput, Machine.takeOutput]
        · simp only [Ended.result, finish, Interpreter.Outcome.behind, Interpreter.Outcome.result,
            ending]
          rfl
      | cons value rest =>
        rw [goOn_of_supplied rfl (by simp only [nextValue, collect, inputs]; rfl)] at answer
        obtain ⟨turn, resumed, answer⟩ := Option.bind_eq_some_iff.mp answer
        obtain ⟨p, further, stopped⟩ := Computer.rests_of_execute (by exact alive) resumed
        let drained : Machine := { m.moved o.final o.steps with output := #[] }
        have onward : (drained.reset.plain [value]).Rests p := further
        obtain ⟨q, rest, shows⟩ := ih (by exact alive) onward stopped answer
        have whole := plain_collected m empty ▸ rest.behind o.final.output
        refine ⟨_, rests.feed_of_starved ending whole, ?_⟩
        have same : ((q.behind o.final.output).later o.steps).behind s.output.toList =
            (q.behind (s.output ++ o.final.output).toList).later o.steps := by
          simp [Interpreter.Outcome.behind, Interpreter.Outcome.later, Interpreter.behind]
        rw [same]
        exact shows.later o.steps

/-- Neither a larger budget nor more turns change how a session ends. -/
theorem goOn_mono {larger further : Nat} (le : budget ≤ larger) (more : turns ≤ further)
    (answer : goOn budget prompt turns s turn = some ended) :
    goOn larger prompt further s turn = some ended := by
  induction turns generalizing further s turn with
  | zero => cases answer
  | succ turns ih =>
    obtain ⟨further, rfl⟩ := Nat.exists_eq_add_one.mpr (Nat.lt_of_lt_of_le turns.succ_pos more)
    rcases status : turn.status with f | ⟨_⟩ | output
    · rw [goOn_of_failed status] at answer ⊢
      exact answer
    · rcases given : (s.collect turn).nextValue prompt turn.computer.takeOutput.2.machine with
        ⟨f | value, next⟩
      · rw [goOn_of_refused status given] at answer ⊢
        exact answer
      · rw [goOn_of_supplied status given] at answer ⊢
        obtain ⟨turn, resumed, answer⟩ := Option.bind_eq_some_iff.mp answer
        exact Option.bind_eq_some_iff.mpr ⟨turn, Computer.steady_resume _ value le resumed,
          ih (Nat.le_of_succ_le_succ more) answer⟩
    · rw [goOn_of_halted status] at answer ⊢
      exact answer

/-- A session ends if its computer has stopped for good or there is no value left for it. -/
theorem exists_goOn_of_rest {m : Machine} {o : Interpreter.Outcome}
    (stopped : turn.stop = m.stopAt o) (rest : s.inputs = [] ∨ o.ending ≠ .starved) :
    ∃ ended, goOn budget none (turns + 1) s turn = some ended := by
  have status : turn.status = (m.stopAt o).status := congrArg Stop.status stopped
  rw [Machine.stopAt] at status
  cases ending : o.ending with
  | failed f => exact ⟨_, goOn_of_failed (by rw [status, ending])⟩
  | halted => exact ⟨_, goOn_of_halted (by rw [status, ending])⟩
  | starved =>
    have inputs : s.inputs = [] := rest.resolve_right fun fed => fed ending
    exact ⟨_, goOn_of_refused (by rw [status, ending])
      (by simp only [nextValue, collect, inputs]; rfl)⟩

/-- A session without anybody to ask ends if the plain interpreter comes to rest on the values that
are left. -/
theorem exists_goOn {m : Machine} {input : List Cell} {o whole : Interpreter.Outcome}
    (alive : m.halted = false) (rests : (m.plain input).Rests o) (stopped : turn.stop = m.stopAt o)
    (complete : ((m.plain input).feed s.inputs).Rests whole) :
    ∃ budget ended, goOn budget none budget s turn = some ended := by
  induction inputs : s.inputs generalizing s turn m input o whole with
  | nil => exact ⟨1, exists_goOn_of_rest stopped (.inl inputs)⟩
  | cons value rest ih =>
    by_cases starved : o.ending = .starved
    · obtain ⟨⟨machine, journal⟩, status, events⟩ := turn
      simp only [Turn.stop, Machine.stopAt, starved, Stop.mk.injEq] at stopped
      obtain ⟨rfl, rfl⟩ := stopped
      obtain ⟨empty, -⟩ := rests.input_of_starved starved
      obtain ⟨_, further⟩ := rests.after_starved starved (inputs ▸ complete)
      rw [← plain_collected m empty] at further
      obtain ⟨_, further⟩ := further.of_behind
      obtain ⟨p, next⟩ := further.of_feed
      let computer : Computer := ⟨{ m.moved o.final o.steps with output := #[] }, journal⟩
      have next : (computer.machine.plain (some value).toList).Rests p := next
      obtain ⟨first, turn, resumed, stopped⟩ := Computer.execute_of_rests (by exact alive) next
      let fed : Session σ :=
        { s.collect ⟨⟨m.moved o.final o.steps, journal⟩, .ok .awaiting, events⟩ with
          inputs := rest }
      have onward : (computer.machine.reset.plain [value]).Rests p := next
      obtain ⟨second, ended, answer⟩ := ih (s := fed) (by exact alive) onward stopped further rfl
      refine ⟨max first second + 1, ended, ?_⟩
      rw [goOn_of_supplied rfl (by simp only [nextValue, collect, inputs]; rfl)]
      refine Option.bind_eq_some_iff.mpr ⟨turn, ?_, ?_⟩
      · exact Computer.steady_resume computer value (by omega) resumed
      · exact goOn_mono (by omega) (by omega) answer
    · exact ⟨1, exists_goOn_of_rest stopped (.inr starved)⟩

/-! ## Asking for values -/

end Session

/-- Whoever is asked answers with the given values in order, and then for want of input. -/
def Prompt.Supplies (prompt : Prompt σ) : σ → List Cell → Prop
  | asked, [] => ∃ f later, prompt asked = (.error f, later) ∧ f.cause = .inputExhausted
  | asked, value :: rest => ∃ later, prompt asked = (.ok value, later) ∧ prompt.Supplies later rest

/-- Two sessions have ended alike: they fail for the same cause if they do, and show the same of
everything else. -/
structure Ended.Alike (one other : Ended σ) : Prop where
  output : one.output = other.output
  computer : one.computer = other.computer
  cause : one.failure.map Failure.cause = other.failure.map Failure.cause
  steps : one.steps = other.steps
  events : one.events = other.events

namespace Session

/-- A session that asks for the rest of its values goes the way of one that has them. -/
theorem goOn_alike {prompt : Prompt σ} {more : List Cell} {turns : Nat} {s : Session σ}
    {turn : Turn} (supplies : prompt.Supplies s.asked more) (asked : σ) :
    Option.Rel Ended.Alike (goOn budget (some prompt) turns s turn)
      (goOn budget none turns { s with inputs := s.inputs ++ more, asked } turn) := by
  induction turns generalizing s turn more with
  | zero => exact .none
  | succ turns ih =>
    rcases status : turn.status with f | ⟨_⟩ | output
    · rw [goOn_of_failed status, goOn_of_failed status]
      exact .some ⟨rfl, rfl, rfl, rfl, rfl⟩
    · cases inputs : s.inputs with
      | cons value rest =>
        rw [goOn_of_supplied status (by simp only [nextValue, collect, inputs]; rfl),
          goOn_of_supplied status (by simp only [nextValue, collect, List.cons_append]; rfl)]
        cases turn.computer.takeOutput.2.resume budget value with
        | none => exact .none
        | some turn => exact ih (s := { s.collect _ with inputs := rest }) supplies
      | nil =>
        cases more with
        | nil =>
          obtain ⟨f, later, refused, exhausted⟩ := supplies
          rw [goOn_of_refused status (by simp only [nextValue, collect, inputs, refused]; rfl),
            goOn_of_refused status (by simp only [nextValue, collect, List.nil_append]; rfl)]
          exact .some ⟨rfl, rfl, congrArg some exhausted, rfl, rfl⟩
        | cons value rest =>
          obtain ⟨later, given, supplies⟩ := supplies
          rw [goOn_of_supplied status (by simp only [nextValue, collect, inputs, given]; rfl),
            goOn_of_supplied status (by simp only [nextValue, collect, List.nil_append]; rfl)]
          cases turn.computer.takeOutput.2.resume budget value with
          | none => exact .none
          | some turn => exact ih (s := { s.collect _ with inputs := [], asked := later }) supplies
    · rw [goOn_of_halted status, goOn_of_halted status]
      exact .some ⟨rfl, rfl, rfl, rfl, rfl⟩

end Session

/-! ## Whole sessions -/

section Whole

variable {program : Memory} {journal : Journal} {inputs : List Cell} {asked : σ}

/-- A session without anybody to ask ends where the plain interpreter comes to rest on the values
of the session. -/
theorem shows_of_converse {ended : Ended σ}
    (answer : converse budget ⟨.load program, journal⟩ inputs none asked = some ended) :
    ∃ o, (Interpreter.load program inputs).Rests o ∧ ended.Shows o := by
  obtain ⟨turn, ran, answer⟩ := Option.bind_eq_some_iff.mp answer
  obtain ⟨o, rests, stopped⟩ := Computer.rests_of_execute (by rfl) ran
  have start : ((Machine.load program).reset.plain []).Rests o := rests
  obtain ⟨whole, complete, shows⟩ := Session.shows_of_goOn (by rfl) start stopped answer
  exact ⟨whole, complete, shows⟩

/-- A session without anybody to ask ends if the plain interpreter comes to rest on its values. -/
theorem exists_converse {o : Interpreter.Outcome}
    (rests : (Interpreter.load program inputs).Rests o) (journal : Journal) (asked : σ) :
    ∃ budget ended, converse budget ⟨.load program, journal⟩ inputs none asked = some ended := by
  have complete : (((Machine.load program).reset.plain []).feed inputs).Rests o := rests
  obtain ⟨p, start⟩ := complete.of_feed
  let computer : Computer := ⟨.load program, journal⟩
  have start : (computer.machine.plain (none : Option Cell).toList).Rests p := start
  obtain ⟨first, turn, ran, stopped⟩ := Computer.execute_of_rests (by rfl) start
  obtain ⟨second, ended, answer⟩ :=
    Session.exists_goOn (s := { inputs, asked }) (by rfl) start stopped complete
  refine ⟨max first second, ended, Option.bind_eq_some_iff.mpr ⟨turn, ?_, ?_⟩⟩
  · exact computer.steady_execute none (Nat.le_max_left first second) ran
  · exact Session.goOn_mono (Nat.le_max_right first second) (Nat.le_max_right first second) answer

/-- A session without anybody to ask comes to the result of the program on its values. -/
theorem converse_result_iff (program : Memory) (journal : Journal) (inputs : List Cell) (asked : σ)
    (result : Except Failure (List Cell)) :
    (∃ budget ended, converse budget ⟨.load program, journal⟩ inputs none asked = some ended ∧
      ended.result = result) ↔ ∃ budget, exec budget program inputs = some result := by
  rw [exec_eq_some_iff]
  constructor
  · rintro ⟨budget, ended, answer, rfl⟩
    obtain ⟨o, rests, shows⟩ := shows_of_converse answer
    exact ⟨o, rests, shows.result.symm⟩
  · rintro ⟨o, rests, rfl⟩
    obtain ⟨budget, ended, answer⟩ := exists_converse rests journal asked
    obtain ⟨p, restsToo, shows⟩ := shows_of_converse answer
    obtain rfl := rests.unique restsToo
    exact ⟨budget, ended, answer, shows.result⟩

end Whole

private theorem Ended.result_eq_ok_iff (ended : Ended σ) (output : List Cell) :
    ended.result = .ok output ↔ ended.failure = none ∧ ended.output = output := by
  cases failure : ended.failure <;> simp [result, failure]

private theorem Ended.result_eq_error_iff (ended : Ended σ) (f : Failure) :
    ended.result = .error f ↔ ended.failure = some f := by
  cases failure : ended.failure <;> simp [result, failure]

/-- A session comes to what the program comes to when it is run on the same values at once, however
the values are supplied. Without anybody to ask, the session ends with an output or with a failure
exactly when the program does, and in any case it has collected all that the plain interpreter puts
out on these values. A session that is given the first values and asks for the rest, until there is
none, ends alike with the session that is given all of them. -/
theorem sessions_agree (program : Memory) (journal : Journal) (asked : σ) :
    (∀ inputs output, (∃ budget ended,
        converse budget ⟨.load program, journal⟩ inputs none asked = some ended ∧
          ended.failure = none ∧ ended.output = output) ↔
      ∃ budget, exec budget program inputs = some (.ok output)) ∧
    (∀ inputs f, (∃ budget ended,
        converse budget ⟨.load program, journal⟩ inputs none asked = some ended ∧
          ended.failure = some f) ↔
      ∃ budget, exec budget program inputs = some (.error f)) ∧
    (∀ inputs budget ended,
      converse budget ⟨.load program, journal⟩ inputs none asked = some ended →
        ∃ o, (Interpreter.load program inputs).Rests o ∧ ended.output = o.final.output ∧
          ended.computer.machine.pc = o.final.pc ∧
            ended.computer.machine.memory = o.final.memory) ∧
    ∀ given more (prompt : Prompt σ), prompt.Supplies asked more → ∀ budget,
      Option.Rel Ended.Alike
        (converse budget ⟨.load program, journal⟩ given (some prompt) asked)
        (converse budget ⟨.load program, journal⟩ (given ++ more) none asked) := by
  refine ⟨?_, ?_, ?_, ?_⟩
  · intro inputs output
    simp only [← converse_result_iff program journal inputs asked, Ended.result_eq_ok_iff]
  · intro inputs f
    simp only [← converse_result_iff program journal inputs asked, Ended.result_eq_error_iff]
  · intro inputs budget ended answer
    obtain ⟨o, rests, shows⟩ := shows_of_converse answer
    exact ⟨o, rests, shows.output, shows.pc, shows.memory⟩
  · intro given more prompt supplies budget
    unfold converse
    cases Computer.run budget ⟨.load program, journal⟩ with
    | none => exact .none
    | some turn =>
      exact Session.goOn_alike (s := { inputs := given, asked }) supplies asked

/-- Someone who answers with a single value. -/
def brief : Respondent :=
  .ofText [.char '8', .char '\n']

theorem sessions_agree_echoTwice_brief :
    (∃ ended, converse 9 ⟨.load echoTwice, {}⟩ [7] (some Respondent.ask) brief = some ended ∧
      ended.failure = none ∧ ended.output = [7, 8]) ∧
    ∃ ended f, converse 9 ⟨.load echoTwice, {}⟩ [7] none brief = some ended ∧
      ended.failure = some f ∧ f.cause = .inputExhausted ∧
        (∃ budget, exec budget echoTwice [7] = some (.error f)) ∧
          ∃ o, (Interpreter.load echoTwice [7]).Rests o ∧ o.final.output = [7] := by
  constructor
  · have supplies : Prompt.Supplies Respondent.ask brief [8] := ⟨_, rfl, _, _, rfl, rfl⟩
    obtain ⟨whole, answer, success, output⟩ : ∃ whole,
        converse 9 ⟨.load echoTwice, {}⟩ ([7] ++ [8]) none brief = some whole ∧
          whole.failure = none ∧ whole.output = [7, 8] :=
      ⟨_, rfl, rfl, rfl⟩
    have both := (sessions_agree echoTwice {} brief).2.2.2 [7] [8] Respondent.ask supplies 9
    rw [answer] at both
    generalize converse 9 ⟨.load echoTwice, {}⟩ [7] (some Respondent.ask) brief = asking at both
    cases both with
    | some alike =>
      exact ⟨_, rfl, by simpa [success] using alike.cause, alike.output.trans output⟩
  · obtain ⟨ended, f, answer, failed, exhausted, output⟩ : ∃ ended f,
        converse 9 ⟨.load echoTwice, {}⟩ [7] none brief = some ended ∧ ended.failure = some f ∧
          f.cause = .inputExhausted ∧ ended.output = [7] :=
      ⟨_, _, rfl, rfl, rfl, rfl⟩
    obtain ⟨-, failures, outputs, -⟩ := sessions_agree echoTwice {} brief
    obtain ⟨o, rests, same, -⟩ := outputs [7] 9 ended answer
    exact ⟨ended, f, answer, failed, exhausted, (failures [7] f).mp ⟨9, ended, answer, failed⟩, o,
      rests, same.symm.trans output⟩

end Console

end CellMachine
