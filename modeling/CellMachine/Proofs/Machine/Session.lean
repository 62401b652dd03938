import CellMachine.Proofs.Machine.Run

/-! # Suspension is transparent

A machine is driven from outside: it is set going without an input value, it is resumed with one,
and its output is taken, in any order and as often as one likes. However the calls are spread, the
values put out, the place and the memory in which the machine stops, the reason and the number of
instructions are those of the plain interpreter on the values that were supplied. Running a program
on a list of input values is one such way of driving it.
-/

namespace CellMachine

inductive Call where
  | run
  | resume (value : Cell)
  | takeOutput
  deriving DecidableEq, Repr

def Call.supplied (calls : List Call) : List Cell :=
  calls.filterMap fun
    | .resume value => some value
    | .run | .takeOutput => none

/-- A machine that is being driven, with what the calls have answered. -/
structure Session where
  machine : Machine
  /-- The answer of the last call that set the machine going. -/
  answer : Option (Except Failure Status) := none
  /-- The values taken so far, in order. -/
  taken : List Cell := []
  /-- The instructions carried out in all the calls together. -/
  steps : Nat := 0

namespace Session

def fresh (memory : Memory) : Session :=
  { machine := .load memory }

/-- The machine has neither halted nor failed. -/
def isOpen (s : Session) : Bool :=
  match s.answer with
  | none | some (.ok .awaiting) => true
  | some (.ok (.halted _)) | some (.error _) => false

def after (s : Session) (stop : Stop) : Session :=
  { s with
    machine := stop.machine
    answer := some stop.status
    steps := s.steps + stop.machine.steps }

def collect (s : Session) : Session :=
  { s with machine := s.machine.takeOutput.2, taken := s.taken ++ s.machine.takeOutput.1 }

/-- The values that the last answer hands over if the machine has halted. -/
def handedOver (s : Session) : List Cell :=
  match s.answer with
  | some (.ok (.halted output)) => output
  | _ => []

/-- All the values put out: those taken, those pending, and those handed over on halting. -/
def produced (s : Session) : List Cell :=
  s.taken ++ s.machine.output.toList ++ s.handedOver

/-- The session after one more call. There is none if the call does not return within the budget, or
if it would set a machine going that has halted or failed. -/
def call? (budget : Nat) (s : Session) : Call → Option Session
  | .run => if s.isOpen then (s.machine.run budget).map s.after else none
  | .resume value => if s.isOpen then (s.machine.resume budget value).map s.after else none
  | .takeOutput => some s.collect

def drive? (budget : Nat) : Session → List Call → Option Session
  | s, [] => some s
  | s, call :: rest => (s.call? budget call).bind fun next => next.drive? budget rest

end Session

/-- The way in which the plain interpreter comes to rest when a machine gives an answer. -/
def Interpreter.Ending.ofAnswer : Except Failure Status → Interpreter.Ending
  | .ok .awaiting => .starved
  | .ok (.halted _) => .halted
  | .error f => .failed f

namespace Session

/-- The plain interpreter that stands where the machine of a session stands and has put out all that
the session has. -/
def plain (s : Session) (input : List Cell) : Interpreter :=
  { pc := s.machine.pc, memory := s.machine.memory, input, output := s.produced }

/-- The session is on the way of the plain interpreter on the values supplied, whatever follows
them: what the plain interpreter does from here is what it does from the start, and once the machine
has stopped for good it has come to rest. -/
structure Follows (memory : Memory) (supplied : List Cell) (s : Session) : Prop where
  running : s.isOpen → s.machine.halted = false
  leads : s.isOpen → ∀ rest o, (s.plain rest).Rests o →
    (Interpreter.load memory (supplied ++ rest)).Rests (o.later s.steps)
  waits : s.answer = some (.ok .awaiting) → (s.plain []).AtInput
  ended : ∀ answer, s.answer = some answer → ¬ s.isOpen → ∀ rest, ∃ left,
    (Interpreter.load memory (supplied ++ rest)).Rests ⟨s.plain left, s.steps, .ofAnswer answer⟩

private theorem fresh_follows (memory : Memory) : (fresh memory).Follows memory [] where
  running _ := rfl
  leads _ rest o rests := by
    have noneBefore : o.later (fresh memory).steps = o := by simp [fresh, Interpreter.Outcome.later]
    rw [noneBefore]
    exact rests
  waits answer := by cases answer
  ended answer given := by cases given

/-- Taking the output changes nothing that the session has put out. -/
theorem plain_collect (s : Session) : s.collect.plain = s.plain := by
  funext input
  simp [plain, produced, collect, handedOver, Machine.takeOutput]

theorem Follows.collect {memory : Memory} {supplied : List Cell} {s : Session}
    (follows : s.Follows memory supplied) : s.collect.Follows memory supplied where
  running := follows.running
  leads := by
    rw [plain_collect]
    exact follows.leads
  waits := by
    rw [plain_collect]
    exact follows.waits
  ended := by
    rw [plain_collect]
    exact follows.ended

private theorem handedOver_of_open {s : Session} (running : s.isOpen) : s.handedOver = [] := by
  unfold isOpen at running
  unfold handedOver
  split at running <;> simp_all

/-- Setting the machine going brings it to where the plain interpreter comes to rest. -/
theorem rests_of_execute {s : Session} {budget : Nat} {input : Option Cell} {stop : Stop}
    (running : s.isOpen) (alive : s.machine.halted = false)
    (stopped : s.machine.execute budget input = some stop) :
    ∃ o, (s.plain input.toList).Rests o ∧ (s.after stop).steps = s.steps + o.steps ∧
      (s.after stop).plain o.final.input = o.final ∧ .ofAnswer stop.status = o.ending ∧
      (o.ending = .starved → stop.machine.halted = false) := by
  rw [Machine.execute_eq alive, Option.map_eq_some_iff] at stopped
  obtain ⟨o, answer, rfl⟩ := stopped
  have place : (s.machine.plain input.toList).behind s.taken = s.plain input.toList := by
    simp [Machine.plain, Interpreter.behind, plain, produced, handedOver_of_open running]
  refine ⟨{ o with final := o.final.behind s.taken }, ?_, ?_, ?_⟩
  · rw [← place]
    exact (Interpreter.rests_of_run answer).behind s.taken
  · cases ending : o.ending <;> simp [after, Machine.stopAt, Machine.moved, Machine.reset, ending]
  · cases ending : o.ending <;>
      simp [after, plain, produced, handedOver, Machine.stopAt, Machine.moved, Machine.reset,
        Interpreter.behind, Interpreter.Ending.ofAnswer, ending, alive]

private theorem isOpen_after_iff (s : Session) (stop : Stop) :
    (s.after stop).isOpen ↔ Interpreter.Ending.ofAnswer stop.status = .starved := by
  rcases status : stop.status with f | ⟨_⟩ | output <;>
    simp [isOpen, after, status, Interpreter.Ending.ofAnswer]

/-- A session that is set going stays on the way of the plain interpreter. -/
theorem Follows.after {memory : Memory} {supplied : List Cell} {s : Session} {budget : Nat}
    {input : Option Cell} {stop : Stop} (follows : s.Follows memory supplied) (running : s.isOpen)
    (stopped : s.machine.execute budget input = some stop) :
    (s.after stop).Follows memory (supplied ++ input.toList) := by
  obtain ⟨o, rests, steps, place, ending, alive⟩ :=
    rests_of_execute running (follows.running running) stopped
  have lead (rest : List Cell) {p : Interpreter.Outcome}
      (further : ((s.plain input.toList).feed rest).Rests p) :
      (Interpreter.load memory (supplied ++ input.toList ++ rest)).Rests (p.later s.steps) := by
    rw [List.append_assoc]
    exact follows.leads running _ _ further
  refine ⟨?_, ?_, ?_, ?_⟩
  · intro reopened
    exact alive (ending ▸ (isOpen_after_iff ..).mp reopened)
  · intro reopened rest p further
    have starved : o.ending = .starved := ending ▸ (isOpen_after_iff ..).mp reopened
    have goOn : (s.after stop).plain rest = o.final.feed rest := by
      rw [← place, (rests.input_of_starved starved).1]
      rfl
    have both := lead rest (rests.feed_of_starved starved (goOn ▸ further))
    rw [steps]
    simpa only [Interpreter.Outcome.later, Nat.add_assoc] using both
  · intro awaiting
    have starved : o.ending = .starved := by
      rw [← ending, Option.some.inj awaiting]
      rfl
    obtain ⟨input, atInput⟩ := rests.input_of_starved starved
    rw [← input, place]
    exact atInput
  · intro answer given closed rest
    have fed : o.ending ≠ .starved := by
      rw [← ending]
      exact fun starved => closed ((isOpen_after_iff ..).mpr starved)
    have finished := lead rest (rests.feed fed rest)
    refine ⟨o.final.input ++ rest, ?_⟩
    have final : (s.after stop).plain (o.final.input ++ rest) = o.final.feed rest := by
      rw [← place]
      rfl
    rw [final, steps, ← Option.some.inj given, ending]
    exact finished

theorem Follows.call {memory : Memory} {supplied : List Cell} {s t : Session} {budget : Nat}
    {call : Call} (follows : s.Follows memory supplied) (called : s.call? budget call = some t) :
    t.Follows memory (supplied ++ Call.supplied [call]) := by
  cases call with
  | run =>
    obtain ⟨running, called⟩ := Option.ite_none_right_eq_some.mp called
    obtain ⟨stop, stopped, rfl⟩ := Option.map_eq_some_iff.mp called
    exact follows.after running stopped
  | resume value =>
    obtain ⟨running, called⟩ := Option.ite_none_right_eq_some.mp called
    obtain ⟨stop, stopped, rfl⟩ := Option.map_eq_some_iff.mp called
    exact follows.after running stopped
  | takeOutput =>
    cases called
    simpa [Call.supplied] using follows.collect

/-- Driving keeps a session on the way of the plain interpreter. -/
theorem Follows.drive {memory : Memory} {supplied : List Cell} {s t : Session} {budget : Nat}
    {calls : List Call} (follows : s.Follows memory supplied)
    (driven : s.drive? budget calls = some t) :
    t.Follows memory (supplied ++ Call.supplied calls) := by
  induction calls generalizing s supplied with
  | nil =>
    cases driven
    simpa [Call.supplied] using follows
  | cons call rest ih =>
    obtain ⟨next, called, driven⟩ := Option.bind_eq_some_iff.mp driven
    have split : Call.supplied (call :: rest) = Call.supplied [call] ++ Call.supplied rest := by
      rw [← List.singleton_append, Call.supplied, List.filterMap_append]
      rfl
    rw [split, ← List.append_assoc]
    exact ih (follows.call called) driven

/-- A machine that has halted, failed, or is suspended with all of the input supplied stands where
the plain interpreter comes to rest. -/
theorem rests_of_drive {memory : Memory} {rest : List Cell} {s : Session} {budget : Nat}
    {calls : List Call} {answer : Except Failure Status}
    (driven : (fresh memory).drive? budget calls = some s)
    (given : s.answer = some answer) (exhausted : answer = .ok .awaiting → rest = []) :
    ∃ left, (Interpreter.load memory (Call.supplied calls ++ rest)).Rests
      ⟨s.plain left, s.steps, .ofAnswer answer⟩ := by
  have follows := (fresh_follows memory).drive driven
  rw [List.nil_append] at follows
  by_cases awaiting : answer = .ok .awaiting
  · subst awaiting
    rw [exhausted rfl]
    have starved : (s.plain []).step = .error .starved :=
      (Interpreter.step_eq_starved_iff _).mpr ⟨rfl, follows.waits given⟩
    exact ⟨[], follows.leads (by simp [isOpen, given]) [] _ (.rest starved)⟩
  · refine follows.ended answer given ?_ rest
    rcases answer with f | ⟨_⟩ | output
    · simp [isOpen, given]
    · exact (awaiting rfl).elim
    · simp [isOpen, given]

end Session

/-! ## Programs run on a list of input values -/

def Interpreter.Outcome.result (o : Interpreter.Outcome) : Except Failure (List Cell) :=
  match o.ending with
  | .halted => .ok o.final.output
  | .starved => .error (Cause.inputExhausted.within (.position o.final.pc))
  | .failed f => .error f

namespace Interpreter.Rests

variable {s : Interpreter} {o : Outcome}

/-- An instruction never fails for want of input. -/
theorem cause_ne_inputExhausted {f : Failure} (rests : s.Rests o) (failed : o.ending = .failed f) :
    f.cause ≠ .inputExhausted := by
  obtain cause | cause | cause := rests.cause_of_failed failed <;> simp [cause]

/-- The plain interpreter fails exactly when the result is a failure other than want of input. -/
theorem failed_iff {f : Failure} (rests : s.Rests o) :
    o.ending = .failed f ↔ o.result = .error f ∧ f.cause ≠ .inputExhausted := by
  constructor
  · intro failed
    exact ⟨by simp only [Outcome.result, failed], rests.cause_ne_inputExhausted failed⟩
  · rintro ⟨result, known⟩
    cases ending : o.ending with
    | halted => simp [Outcome.result, ending] at result
    | starved =>
      simp only [Outcome.result, ending, Except.error.injEq] at result
      exact (known (result ▸ rfl)).elim
    | failed other => simpa [Outcome.result, ending] using result

/-- The plain interpreter starves exactly when the result is want of input. -/
theorem starved_iff (rests : s.Rests o) :
    o.ending = .starved ↔ ∃ f, o.result = .error f ∧ f.cause = .inputExhausted := by
  constructor
  · intro starved
    refine ⟨Cause.inputExhausted.within (.position o.final.pc), ?_, rfl⟩
    simp only [Outcome.result, starved]
  · rintro ⟨f, result, exhausted⟩
    cases ending : o.ending with
    | halted => simp [Outcome.result, ending] at result
    | starved => rfl
    | failed other =>
      simp only [Outcome.result, ending, Except.error.injEq] at result
      exact (rests.cause_ne_inputExhausted ending (result ▸ exhausted)).elim

end Interpreter.Rests

namespace Machine

/-- A larger budget never changes the result of feeding a machine. -/
theorem feed_mono {budget larger : Nat} {inputs : List Cell} {stop : Stop}
    {result : Except Failure (List Cell)} (le : budget ≤ larger)
    (fed : feed budget inputs stop = some result) : feed larger inputs stop = some result := by
  induction inputs generalizing stop with
  | nil => rcases stop with ⟨m, f | ⟨_⟩ | output⟩ <;> exact fed
  | cons value rest ih =>
    rcases stop with ⟨m, f | ⟨_⟩ | output⟩
    · exact fed
    · obtain ⟨next, resumed, fed⟩ := Option.bind_eq_some_iff.mp fed
      exact Option.bind_eq_some_iff.mpr ⟨next, execute_mono le resumed, ih fed⟩
    · exact fed

/-- A machine that has stopped for good, or has been given all of its input, is not fed any more. -/
theorem feed_stopAt_of_rest {inputs : List Cell} {o : Interpreter.Outcome} (m : Machine)
    (budget : Nat) (rest : inputs = [] ∨ o.ending ≠ .starved) :
    feed budget inputs (m.stopAt o) = some o.result := by
  cases ending : o.ending with
  | starved =>
    obtain rfl : inputs = [] := rest.resolve_right (fun fed => fed ending)
    simp only [stopAt, ending, feed, Interpreter.Outcome.result]
    rfl
  | halted | failed f =>
    cases inputs <;> simp only [stopAt, ending, feed, Interpreter.Outcome.result]

/-- A machine that waits for input is resumed with the next value. -/
theorem feed_stopAt_of_starved {o : Interpreter.Outcome} (m : Machine) (budget : Nat) (value : Cell)
    (rest : List Cell) (starved : o.ending = .starved) :
    feed budget (value :: rest) (m.stopAt o) =
      ((m.moved o.final o.steps).resume budget value).bind (feed budget rest) := by
  simp only [stopAt, starved, feed]

/-- The plain interpreter in the place of a machine that waits for input and is given a value. -/
theorem feed_plain_reset {o : Interpreter.Outcome} (m : Machine) (empty : o.final.input = [])
    {value : Cell} {rest : List Cell} :
    ((m.moved o.final o.steps).reset.plain [value]).feed rest = o.final.feed (value :: rest) := by
  simp [plain, moved, reset, Interpreter.feed, empty]

/-- Feeding a machine leads to the result of the plain interpreter on the whole input. -/
theorem rests_of_feed {budget : Nat} {inputs input : List Cell} {m : Machine}
    {o : Interpreter.Outcome} {result : Except Failure (List Cell)} (alive : m.halted = false)
    (rests : (m.plain input).Rests o) (fed : feed budget inputs (m.stopAt o) = some result) :
    ∃ p, ((m.plain input).feed inputs).Rests p ∧ p.result = result := by
  induction inputs generalizing m input o with
  | nil =>
    rw [feed_stopAt_of_rest m budget (.inl rfl)] at fed
    cases fed
    refine ⟨o, ?_, rfl⟩
    simpa [Interpreter.feed] using rests
  | cons value rest ih =>
    by_cases starved : o.ending = .starved
    · rw [feed_stopAt_of_starved m budget value rest starved] at fed
      obtain ⟨stop, resumed, fed⟩ := Option.bind_eq_some_iff.mp fed
      rw [resume, execute_eq (by exact alive)] at resumed
      obtain ⟨p, answer, rfl⟩ := Option.map_eq_some_iff.mp resumed
      have resumedRests : ((m.moved o.final o.steps).reset.plain [value]).Rests p :=
        Interpreter.rests_of_run answer
      obtain ⟨q, further, rfl⟩ := ih (by exact alive) resumedRests fed
      rw [feed_plain_reset m (rests.input_of_starved starved).1] at further
      exact ⟨q.later o.steps, rests.feed_of_starved starved further, rfl⟩
    · rw [feed_stopAt_of_rest m budget (.inr starved)] at fed
      cases fed
      exact ⟨_, rests.feed starved _, rfl⟩

/-- Feeding a machine comes to an end if the plain interpreter does on the whole input. -/
theorem feed_of_rests {inputs input : List Cell} {m : Machine} {o p : Interpreter.Outcome}
    (alive : m.halted = false) (rests : (m.plain input).Rests o)
    (whole : ((m.plain input).feed inputs).Rests p) :
    ∃ budget result, feed budget inputs (m.stopAt o) = some result := by
  induction inputs generalizing m input o p with
  | nil => exact ⟨0, _, feed_stopAt_of_rest m 0 (.inl rfl)⟩
  | cons value rest ih =>
    by_cases starved : o.ending = .starved
    · obtain ⟨q, further⟩ := rests.after_starved starved whole
      rw [← feed_plain_reset m (rests.input_of_starved starved).1] at further
      obtain ⟨r, resumedRests⟩ := further.of_feed
      obtain ⟨first, answer⟩ := Interpreter.rests_iff.mp resumedRests
      obtain ⟨second, result, fed⟩ := ih (by exact alive) resumedRests further
      have resumed : (m.moved o.final o.steps).resume (max first second) value =
          some ((m.moved o.final o.steps).reset.stopAt r) := by
        refine execute_mono (Nat.le_max_left first second) ?_
        refine (execute_eq (by exact alive) ..).trans ?_
        exact Option.map_eq_some_iff.mpr ⟨r, answer, rfl⟩
      refine ⟨max first second, result, ?_⟩
      rw [feed_stopAt_of_starved m _ value rest starved, resumed]
      exact feed_mono (Nat.le_max_right first second) fed
    · exact ⟨0, _, feed_stopAt_of_rest m 0 (.inr starved)⟩

end Machine

/-- A program run on a list of input values answers what the plain interpreter does. -/
theorem exec_eq_some_iff (program : Memory) (inputs : List Cell)
    (result : Except Failure (List Cell)) :
    (∃ budget, exec budget program inputs = some result) ↔
      ∃ o, (Interpreter.load program inputs).Rests o ∧ o.result = result := by
  have start (budget : Nat) : (Machine.load program).run budget =
      (((Machine.load program).plain []).run budget).map (Machine.load program).stopAt :=
    Machine.execute_eq rfl budget none
  constructor
  · rintro ⟨budget, answer⟩
    obtain ⟨stop, ran, fed⟩ := Option.bind_eq_some_iff.mp answer
    rw [start] at ran
    obtain ⟨o, answer, rfl⟩ := Option.map_eq_some_iff.mp ran
    exact Machine.rests_of_feed rfl (Interpreter.rests_of_run answer) fed
  · rintro ⟨o, rests, rfl⟩
    have whole : (((Machine.load program).plain []).feed inputs).Rests o := rests
    obtain ⟨p, first⟩ := whole.of_feed
    obtain ⟨starting, answer⟩ := Interpreter.rests_iff.mp first
    obtain ⟨feeding, result, fed⟩ := Machine.feed_of_rests rfl first whole
    obtain ⟨q, restsToo, rfl⟩ := Machine.rests_of_feed rfl first fed
    obtain rfl := rests.unique restsToo
    have ran : (Machine.load program).run (max starting feeding) =
        some ((Machine.load program).stopAt p) := by
      refine Machine.execute_mono (Nat.le_max_left starting feeding) ((start starting).trans ?_)
      rw [answer, Option.map_some]
    refine ⟨max starting feeding, Option.bind_eq_some_iff.mpr ⟨_, ran, ?_⟩⟩
    exact Machine.feed_mono (Nat.le_max_right ..) fed

/-- However a machine is driven, once it has halted, failed, or is suspended with all of the input
supplied, it agrees with the plain interpreter on everything that can be seen of it. A program run
on a list of input values halts, fails and runs out of input exactly when the plain interpreter
does. -/
theorem suspension_transparent (memory : Memory) (inputs : List Cell) :
    (∀ budget calls rest s answer, (Session.fresh memory).drive? budget calls = some s →
      Call.supplied calls ++ rest = inputs → s.answer = some answer →
      (answer = .ok .awaiting → rest = []) →
      ∃ o, (Interpreter.load memory inputs).Rests o ∧ o.ending = .ofAnswer answer ∧
        o.final.pc = s.machine.pc ∧ o.final.memory = s.machine.memory ∧
        o.final.output = s.produced ∧ o.steps = s.steps) ∧
    (∀ output, (∃ budget, exec budget memory inputs = some (.ok output)) ↔
      ∃ o, (Interpreter.load memory inputs).Rests o ∧ o.ending = .halted ∧
        o.final.output = output) ∧
    (∀ f, (∃ budget, exec budget memory inputs = some (.error f)) ∧ f.cause ≠ .inputExhausted ↔
      ∃ o, (Interpreter.load memory inputs).Rests o ∧ o.ending = .failed f) ∧
    ((∃ budget f, exec budget memory inputs = some (.error f) ∧ f.cause = .inputExhausted) ↔
      ∃ o, (Interpreter.load memory inputs).Rests o ∧ o.ending = .starved) := by
  refine ⟨?_, ?_, ?_, ?_⟩
  · rintro budget calls rest s answer driven rfl given exhausted
    obtain ⟨left, rests⟩ := Session.rests_of_drive driven given exhausted
    exact ⟨_, rests, rfl, rfl, rfl, rfl, rfl⟩
  · intro output
    rw [exec_eq_some_iff]
    refine exists_congr fun o => and_congr_right fun _ => ?_
    cases ending : o.ending <;> simp [Interpreter.Outcome.result, ending]
  · intro f
    rw [exec_eq_some_iff]
    constructor
    · rintro ⟨⟨o, rests, result⟩, known⟩
      exact ⟨o, rests, rests.failed_iff.mpr ⟨result, known⟩⟩
    · rintro ⟨o, rests, failed⟩
      obtain ⟨result, known⟩ := rests.failed_iff.mp failed
      exact ⟨⟨o, rests, result⟩, known⟩
  · constructor
    · rintro ⟨budget, f, answer, exhausted⟩
      obtain ⟨o, rests, result⟩ := (exec_eq_some_iff memory inputs _).mp ⟨budget, answer⟩
      exact ⟨o, rests, rests.starved_iff.mpr ⟨f, result, exhausted⟩⟩
    · rintro ⟨o, rests, starved⟩
      obtain ⟨f, result, exhausted⟩ := rests.starved_iff.mp starved
      obtain ⟨budget, answer⟩ := (exec_eq_some_iff memory inputs _).mpr ⟨o, rests, result⟩
      exact ⟨budget, f, answer, exhausted⟩

/-- A program that echoes two values. -/
def echoTwice : Memory :=
  .ofList [3, 0, 4, 0, 3, 0, 4, 0, 99]

theorem suspension_transparent_echoTwice :
    ∃ s, (Session.fresh echoTwice).drive? 9
        [.run, .takeOutput, .resume 7, .takeOutput, .run, .resume 8] = some s ∧
      s.taken = [7] ∧ s.answer = some (.ok (.halted [8])) ∧
      ∃ o, (Interpreter.load echoTwice [7, 8]).Rests o ∧ o.ending = .halted ∧
        o.final.pc = s.machine.pc ∧ o.final.memory = s.machine.memory ∧
        o.final.output = s.produced ∧ o.steps = s.steps := by
  have driven : ((Session.fresh echoTwice).drive? 9
      [.run, .takeOutput, .resume 7, .takeOutput, .run, .resume 8]).map
      (fun s => (s.taken, s.answer)) = some ([7], some (.ok (.halted [8]))) := rfl
  obtain ⟨s, driven, seen⟩ := Option.map_eq_some_iff.mp driven
  obtain ⟨taken, halted⟩ := Prod.mk.inj seen
  exact ⟨s, driven, taken, halted,
    (suspension_transparent echoTwice [7, 8]).1 9 _ [] s _ driven rfl halted nofun⟩

end CellMachine
