import CellMachine.Machine.Run
import CellMachine.Proofs.Memory.Address

/-! # The plain interpreter

The plain interpreter carries out one decoded instruction at a time. It has its whole input from the
start and keeps its whole output, so it never waits and nobody takes anything from it. It comes to
rest when it halts, when an instruction fails, or when an instruction reads past the end of the
input. What a machine does over many calls is measured against one run of the plain interpreter, for
which reason the table of what each operation does is written out here once more.

The laws below say how a run depends on the two lists. Output put out before a run stays in front of
it and changes nothing else. A run that did not end for want of input goes the same way on a longer
input, and a run that did is a part of the run on the longer input.
-/

namespace CellMachine

/-- The state of the plain interpreter between two instructions. -/
structure Interpreter where
  pc : Cell := 0
  memory : Memory
  /-- The input values that have not been read. -/
  input : List Cell := []
  /-- All the values put out, the oldest first. -/
  output : List Cell := []
  deriving DecidableEq, Repr

namespace Interpreter

inductive Ending where
  | halted
  /-- An input value is to be read and there is none left. -/
  | starved
  | failed (failure : Failure)
  deriving DecidableEq, Repr

/-- Stores a value at the destination of an instruction and goes on behind the instruction, which is
as long as is said. -/
def store (s : Interpreter) (ins : Instruction) (length value : Cell) :
    Except Ending Interpreter :=
  if 0 ≤ ins.dest.toInt ∧ ins.dest.toInt < s.memory.size then
    .ok { s with
      pc := s.pc + length
      memory := .ofList (s.memory.toList.set ins.dest.toInt.toNat value) }
  else
    .error (.failed ⟨.addressOutOfBounds,
      [.instruction ins s.pc, .write ins.dest s.memory.size]⟩)

def perform (s : Interpreter) (ins : Instruction) : Except Ending Interpreter :=
  match ins.op with
  | .add => s.store ins 4 (ins.a + ins.b)
  | .mul => s.store ins 4 (ins.a * ins.b)
  | .input =>
    match s.input with
    | [] => .error .starved
    | value :: rest => { s with input := rest }.store ins 2 value
  | .output => .ok { s with pc := s.pc + 2, output := s.output ++ [ins.a] }
  | .jumpIfTrue => .ok { s with pc := if ins.a ≠ 0 then ins.dest else s.pc + 3 }
  | .jumpIfFalse => .ok { s with pc := if ins.a = 0 then ins.dest else s.pc + 3 }
  | .lessThan => s.store ins 4 (if ins.a < ins.b then 1 else 0)
  | .equals => s.store ins 4 (if ins.a = ins.b then 1 else 0)
  | .halt => .error .halted
  | .unknown code => .error (.failed ⟨.invalidOpcode, [.word code s.pc]⟩)

def step (s : Interpreter) : Except Ending Interpreter :=
  match Instruction.decode s.memory s.pc with
  | .error undecoded => .error (.failed undecoded.failure)
  | .ok ins => s.perform ins

/-- The instructions that count as carried out when the interpreter comes to rest: the one that
halts, and none that failed or starved. -/
def Ending.steps : Ending → Nat
  | halted => 1
  | starved | failed _ => 0

/-- How a run ended: the last state, the number of instructions carried out, and the reason. -/
structure Outcome where
  final : Interpreter
  steps : Nat
  ending : Ending
  deriving DecidableEq, Repr

def Outcome.later (n : Nat) (o : Outcome) : Outcome :=
  { o with steps := n + o.steps }

/-- Carries out instructions until the interpreter comes to rest. The answer `none` says that the
budget was too small and nothing else. -/
def run : (budget : Nat) → Interpreter → Option Outcome
  | 0, _ => none
  | budget + 1, s =>
    match s.step with
    | .ok next => (run budget next).map (Outcome.later 1)
    | .error ending => some ⟨s, ending.steps, ending⟩

/-- `s.Rests o`: from the state `s` the interpreter comes to rest with the outcome `o`. -/
inductive Rests : Interpreter → Outcome → Prop
  | rest {s : Interpreter} {ending : Ending} (stopped : s.step = .error ending) :
      Rests s ⟨s, ending.steps, ending⟩
  | next {s t : Interpreter} {o : Outcome} (stepped : s.step = .ok t) (rests : Rests t o) :
      Rests s (o.later 1)

def load (memory : Memory) (input : List Cell) : Interpreter :=
  { memory, input }

/-- The same state with more input behind the one it has. -/
def feed (s : Interpreter) (more : List Cell) : Interpreter :=
  { s with input := s.input ++ more }

/-- The same state with earlier output in front of its own. -/
def behind (s : Interpreter) (earlier : List Cell) : Interpreter :=
  { s with output := earlier ++ s.output }

/-- The same end, with earlier output in front. -/
def Outcome.behind (o : Outcome) (earlier : List Cell) : Outcome :=
  { o with final := o.final.behind earlier }

/-- The next instruction decodes and reads an input value. -/
def AtInput (s : Interpreter) : Prop :=
  ∃ ins, Instruction.decode s.memory s.pc = .ok ins ∧ ins.op = .input

/-! ## One instruction -/

/-- A store writes to memory. -/
theorem store_eq (s : Interpreter) (ins : Instruction) (length value : Cell) :
    s.store ins length value =
      match s.memory.write ins.dest value with
      | .ok memory => .ok { s with pc := s.pc + length, memory }
      | .error f => .error (.failed (f.within (.instruction ins s.pc))) := by
  unfold store Memory.write
  by_cases inside : s.memory.Contains ins.dest
  · rw [dif_pos inside, if_pos (Memory.contains_iff.mp inside)]
    have cells : (s.memory.cells.set ins.dest.toNatClampNeg value inside.2).toList =
        s.memory.toList.set ins.dest.toInt.toNat value :=
      s.memory.cells.toList_set _ value inside.2
    rw [← cells]
    rfl
  · rw [dif_neg inside, if_neg (mt Memory.contains_iff.mpr inside)]
    rfl

/-- Earlier output is carried along by a store. -/
private theorem store_behind (s : Interpreter) (earlier : List Cell) (ins : Instruction)
    (length value : Cell) :
    (s.behind earlier).store ins length value =
      (s.store ins length value).map (·.behind earlier) := by
  unfold store behind
  split <;> rfl

/-- Earlier output is carried along and never looked at. -/
theorem perform_behind (s : Interpreter) (earlier : List Cell) (ins : Instruction) :
    (s.behind earlier).perform ins = (s.perform ins).map (·.behind earlier) := by
  obtain ⟨pc, memory, input, output⟩ := s
  obtain ⟨op, a, b, dest⟩ := ins
  cases op with
  | add | mul | lessThan | equals => exact store_behind ..
  | input =>
    cases input with
    | nil => rfl
    | cons value rest => exact store_behind ⟨pc, memory, rest, output⟩ ..
  | output => simp [perform, behind, Except.map]
  | jumpIfTrue | jumpIfFalse | halt | unknown code => rfl

theorem step_behind (s : Interpreter) (earlier : List Cell) :
    (s.behind earlier).step = s.step.map (·.behind earlier) := by
  unfold step
  simp only [behind]
  cases Instruction.decode s.memory s.pc with
  | error undecoded => rfl
  | ok ins => exact perform_behind ..

/-- Input further behind is carried along by a store. -/
private theorem store_feed (s : Interpreter) (more : List Cell) (ins : Instruction)
    (length value : Cell) :
    (s.feed more).store ins length value = (s.store ins length value).map (·.feed more) := by
  unfold store feed
  split <;> rfl

/-- An instruction that does not starve does the same when there is more input behind. -/
theorem perform_feed {s : Interpreter} {ins : Instruction} (fed : s.perform ins ≠ .error .starved)
    (more : List Cell) : (s.feed more).perform ins = (s.perform ins).map (·.feed more) := by
  obtain ⟨pc, memory, input, output⟩ := s
  obtain ⟨op, a, b, dest⟩ := ins
  cases op with
  | add | mul | lessThan | equals => exact store_feed ..
  | input =>
    cases input with
    | nil => exact (fed rfl).elim
    | cons value rest => exact store_feed ⟨pc, memory, rest, output⟩ ..
  | output | jumpIfTrue | jumpIfFalse | halt | unknown code => rfl

theorem step_feed {s : Interpreter} (fed : s.step ≠ .error .starved) (more : List Cell) :
    (s.feed more).step = s.step.map (·.feed more) := by
  unfold step at fed ⊢
  simp only [feed]
  cases decoded : Instruction.decode s.memory s.pc with
  | error undecoded => rfl
  | ok ins => exact perform_feed (by simpa only [decoded] using fed) more

private theorem step_feed_ok {s t : Interpreter} (stepped : s.step = .ok t) (more : List Cell) :
    (s.feed more).step = .ok (t.feed more) := by
  rw [step_feed (by simp [stepped]), stepped]
  rfl

/-- Only an instruction that reads past the end of the input starves. -/
theorem step_eq_starved_iff (s : Interpreter) :
    s.step = .error .starved ↔ s.input = [] ∧ s.AtInput := by
  unfold step AtInput
  cases decoded : Instruction.decode s.memory s.pc with
  | error undecoded => simp
  | ok ins =>
    have stored (t : Interpreter) (length value : Cell) :
        t.store ins length value ≠ .error .starved := by
      unfold store
      split <;> simp
    cases op : ins.op with
    | input => cases pending : s.input <;> simp [perform, op, pending, stored]
    | add | mul | lessThan | equals => simp [perform, op, stored]
    | output | jumpIfTrue | jumpIfFalse | halt | unknown code => simp [perform, op]

private theorem store_cause {s : Interpreter} {ins : Instruction} {length value : Cell}
    {f : Failure} (failed : s.store ins length value = .error (.failed f)) :
    f.cause.OfInstruction := by
  unfold store at failed
  split at failed
  · cases failed
  · cases failed
    exact .inr (.inr rfl)

private theorem perform_cause {s : Interpreter} {ins : Instruction} {f : Failure}
    (failed : s.perform ins = .error (.failed f)) : f.cause.OfInstruction := by
  obtain ⟨pc, memory, input, output⟩ := s
  obtain ⟨op, a, b, dest⟩ := ins
  cases op with
  | add | mul | lessThan | equals => exact store_cause failed
  | input =>
    cases input with
    | nil => cases failed
    | cons value rest => exact store_cause failed
  | output | jumpIfTrue | jumpIfFalse | halt => cases failed
  | unknown code =>
    cases failed
    exact .inl rfl

/-- An instruction fails for one of three causes, and never for want of input. -/
theorem step_cause {s : Interpreter} {f : Failure} (failed : s.step = .error (.failed f)) :
    f.cause.OfInstruction := by
  unfold step at failed
  split at failed
  · next undecoded =>
    cases failed
    exact Instruction.decode_cause undecoded
  · exact perform_cause failed

/-- A store reads nothing and puts nothing out. -/
private theorem store_traffic {s t : Interpreter} {ins : Instruction} {length value : Cell}
    (stored : s.store ins length value = .ok t) : t.input = s.input ∧ t.output = s.output := by
  unfold store at stored
  split at stored
  · cases stored
    exact ⟨rfl, rfl⟩
  · cases stored

/-- An instruction reads from the front of the input and puts out behind the output. -/
theorem perform_traffic {s t : Interpreter} {ins : Instruction}
    (performed : s.perform ins = .ok t) : t.input <:+ s.input ∧ s.output <+: t.output := by
  obtain ⟨pc, memory, input, output⟩ := s
  obtain ⟨op, a, b, dest⟩ := ins
  cases op with
  | add | mul | lessThan | equals =>
    obtain ⟨sameInput, sameOutput⟩ := store_traffic performed
    exact ⟨sameInput ▸ List.suffix_rfl, sameOutput ▸ List.prefix_rfl⟩
  | input =>
    cases input with
    | nil => cases performed
    | cons value rest =>
      obtain ⟨sameInput, sameOutput⟩ := store_traffic performed
      exact ⟨sameInput ▸ List.suffix_cons .., sameOutput ▸ List.prefix_rfl⟩
  | output =>
    cases performed
    exact ⟨List.suffix_rfl, List.prefix_append ..⟩
  | jumpIfTrue | jumpIfFalse =>
    cases performed
    exact ⟨List.suffix_rfl, List.prefix_rfl⟩
  | halt | unknown code => cases performed

theorem step_traffic {s t : Interpreter} (stepped : s.step = .ok t) :
    t.input <:+ s.input ∧ s.output <+: t.output := by
  unfold step at stepped
  split at stepped
  · cases stepped
  · exact perform_traffic stepped

/-- An instruction that reads an input value takes the first one, unless it fails. -/
theorem AtInput.step {s : Interpreter} (reading : s.AtInput) {value : Cell} {rest : List Cell}
    (given : s.input = value :: rest) :
    (∃ t, s.step = .ok t ∧ t.input = rest) ∨ ∃ f, s.step = .error (.failed f) := by
  obtain ⟨ins, decoded, op⟩ := reading
  have stored : s.step = { s with input := rest }.store ins 2 value := by
    simp only [Interpreter.step, decoded, perform, op, given]
  rw [stored, store]
  split
  · exact .inl ⟨_, rfl, rfl⟩
  · exact .inr ⟨_, rfl⟩

/-! ## Runs -/

theorem rests_of_run {budget : Nat} {s : Interpreter} {o : Outcome}
    (answer : s.run budget = some o) : s.Rests o := by
  induction budget generalizing s o with
  | zero => cases answer
  | succ budget ih =>
    unfold run at answer
    cases stepped : s.step with
    | error ending =>
      simp only [stepped] at answer
      cases answer
      exact .rest stepped
    | ok t =>
      simp only [stepped, Option.map_eq_some_iff] at answer
      obtain ⟨o, answer, rfl⟩ := answer
      exact .next stepped (ih answer)

/-- Earlier output stays in front of what a run puts out, within the same budget. -/
theorem run_behind (budget : Nat) (s : Interpreter) (earlier : List Cell) :
    (s.behind earlier).run budget = (s.run budget).map (·.behind earlier) := by
  induction budget generalizing s with
  | zero => rfl
  | succ budget ih =>
    unfold run
    rw [step_behind]
    cases s.step with
    | error ending => rfl
    | ok t =>
      simp only [Except.map, ih, Option.map_map]
      rfl

/-- The interpreter comes to rest exactly when some budget is large enough. -/
theorem rests_iff {s : Interpreter} {o : Outcome} :
    s.Rests o ↔ ∃ budget, s.run budget = some o := by
  constructor
  · intro rests
    induction rests with
    | rest stopped => exact ⟨1, by simp only [run, stopped]⟩
    | next stepped _ ih =>
      obtain ⟨budget, answer⟩ := ih
      exact ⟨budget + 1, by simp only [run, stepped, answer, Option.map_some]⟩
  · rintro ⟨budget, answer⟩
    exact rests_of_run answer

namespace Rests

variable {s : Interpreter} {o p : Outcome}

/-- All runs from a state end in the same way. -/
theorem unique (rests : s.Rests o) (other : s.Rests p) : o = p := by
  induction rests generalizing p with
  | rest stopped =>
    cases other with
    | rest stoppedToo => cases stopped.symm.trans stoppedToo; rfl
    | next stepped => cases stopped.symm.trans stepped
  | next stepped _ ih =>
    cases other with
    | rest stopped => cases stepped.symm.trans stopped
    | next steppedToo rests =>
      cases stepped.symm.trans steppedToo
      rw [ih rests]

/-- A run ends in a state from which no step leads on. -/
theorem step_final (rests : s.Rests o) : o.final.step = .error o.ending := by
  induction rests with
  | rest stopped => exact stopped
  | next _ _ ih => exact ih

/-- A run reads from the front of the input and puts out behind the output. -/
theorem traffic (rests : s.Rests o) : o.final.input <:+ s.input ∧ s.output <+: o.final.output := by
  induction rests with
  | rest => exact ⟨List.suffix_rfl, List.prefix_rfl⟩
  | next stepped _ ih =>
    obtain ⟨input, output⟩ := step_traffic stepped
    exact ⟨ih.1.trans input, output.trans ih.2⟩

/-- A run that fails does so for one of the causes of an instruction. -/
theorem cause_of_failed {f : Failure} (rests : s.Rests o) (failed : o.ending = .failed f) :
    f.cause.OfInstruction :=
  step_cause (failed ▸ rests.step_final)

/-- A run that starves has read all of its input. -/
theorem input_of_starved (rests : s.Rests o) (starved : o.ending = .starved) :
    o.final.input = [] ∧ o.final.AtInput :=
  (step_eq_starved_iff _).mp (starved ▸ rests.step_final)

/-- A run that starts with an instruction that reads an input value has read it, unless it fails. -/
theorem input_of_atInput {value : Cell} {rest : List Cell} (rests : s.Rests o)
    (reading : s.AtInput) (given : s.input = value :: rest) (fine : ∀ f, o.ending ≠ .failed f) :
    o.final.input <:+ rest := by
  obtain ⟨t, stepped, rfl⟩ | ⟨f, failed⟩ := reading.step given
  · cases rests with
    | rest stopped => cases stepped.symm.trans stopped
    | next steppedToo rests =>
      cases stepped.symm.trans steppedToo
      exact rests.traffic.1
  · cases rests with
    | rest stopped =>
      cases failed.symm.trans stopped
      exact (fine f rfl).elim
    | next stepped => cases failed.symm.trans stepped

/-- Earlier output stays in front of what a run puts out. -/
theorem behind (rests : s.Rests o) (earlier : List Cell) :
    (s.behind earlier).Rests (o.behind earlier) := by
  obtain ⟨budget, answer⟩ := rests_iff.mp rests
  exact rests_of_run (by rw [run_behind, answer, Option.map_some])

/-- A run comes to rest if it does with earlier output in front. -/
theorem of_behind {earlier : List Cell} (rests : (s.behind earlier).Rests o) : ∃ p, s.Rests p := by
  obtain ⟨budget, answer⟩ := rests_iff.mp rests
  rw [run_behind] at answer
  obtain ⟨p, answer, -⟩ := Option.map_eq_some_iff.mp answer
  exact ⟨p, rests_of_run answer⟩

/-- A run that does not starve goes the same way when there is more input behind. -/
theorem feed (rests : s.Rests o) (fed : o.ending ≠ .starved) (more : List Cell) :
    (s.feed more).Rests { o with final := o.final.feed more } := by
  induction rests with
  | rest stopped => exact .rest (by rw [step_feed (by simpa [stopped] using fed), stopped]; rfl)
  | next stepped _ ih => exact .next (step_feed_ok stepped more) (ih fed)

/-- A run that starves is the first part of the run on a longer input. -/
theorem feed_of_starved (rests : s.Rests o) (starved : o.ending = .starved) {more : List Cell}
    (further : (o.final.feed more).Rests p) : (s.feed more).Rests (p.later o.steps) := by
  induction rests with
  | rest stopped =>
    obtain rfl : _ = Ending.starved := starved
    simpa only [Ending.steps, Outcome.later, Nat.zero_add] using further
  | @next s t o stepped _ ih =>
    have later : p.later (o.later 1).steps = (p.later o.steps).later 1 := by
      simp only [Outcome.later, Nat.add_assoc]
    rw [later]
    exact .next (step_feed_ok stepped more) (ih starved further)

/-- The run on a longer input, from where a run that starved has left off. -/
theorem after_starved (rests : s.Rests o) (starved : o.ending = .starved) {more : List Cell}
    (longer : (s.feed more).Rests p) : ∃ q, (o.final.feed more).Rests q := by
  induction rests generalizing p with
  | rest => exact ⟨p, longer⟩
  | next stepped _ ih =>
    cases longer with
    | rest stopped => cases (step_feed_ok stepped more).symm.trans stopped
    | next steppedOn rests =>
      cases (step_feed_ok stepped more).symm.trans steppedOn
      exact ih starved rests

/-- A run on some input comes to rest if the run on a longer one does. -/
theorem of_feed {more : List Cell} (rests : (s.feed more).Rests o) : ∃ p, s.Rests p := by
  generalize start : s.feed more = longer at rests
  induction rests generalizing s with
  | rest stopped =>
    subst start
    cases stepped : s.step with
    | error ending => exact ⟨_, .rest stepped⟩
    | ok t => cases (step_feed_ok stepped more).symm.trans stopped
  | next steppedOn _ ih =>
    subst start
    cases stepped : s.step with
    | error ending => exact ⟨_, .rest stepped⟩
    | ok t =>
      cases (step_feed_ok stepped more).symm.trans steppedOn
      obtain ⟨p, rests⟩ := ih rfl
      exact ⟨_, .next stepped rests⟩

/-- The run on a longer input is the run on the shorter one, and what follows on it if that run
starves. -/
theorem split {more : List Cell} (longer : (s.feed more).Rests o) :
    ∃ p, s.Rests p ∧
      ((p.ending = .starved ∧ ∃ q, (p.final.feed more).Rests q ∧ o = q.later p.steps) ∨
        p.ending ≠ .starved ∧ o = { p with final := p.final.feed more }) := by
  obtain ⟨p, rests⟩ := longer.of_feed
  refine ⟨p, rests, ?_⟩
  by_cases starved : p.ending = .starved
  · obtain ⟨q, further⟩ := rests.after_starved starved longer
    exact .inl ⟨starved, q, further, longer.unique (rests.feed_of_starved starved further)⟩
  · exact .inr ⟨starved, longer.unique (rests.feed starved more)⟩

end Rests

end Interpreter

end CellMachine
