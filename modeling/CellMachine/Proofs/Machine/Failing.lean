import CellMachine.Proofs.Machine.LifeCycle

/-! # Failing instructions

An instruction that fails has no effect: the machine stands as it stood after the last instruction
that was carried out. Setting it going again tries the same instruction again, and since neither the
memory nor the place has changed it fails in the same way. What the instruction was given as input
does not matter for that; only an instruction that reads input and is given none waits instead.
-/

namespace CellMachine

namespace Interpreter

variable {s : Interpreter}

/-- The state after a number of instructions, provided that all of them are carried out. -/
def after : (count : Nat) → Interpreter → Option Interpreter
  | 0, s => some s
  | count + 1, s =>
    match s.step with
    | .ok next => after count next
    | .error _ => none

/-- The same state with other input values. -/
def refill (s : Interpreter) (input : List Cell) : Interpreter :=
  { s with input }

/-- A run that fails or starves ends after the instructions that it counts. -/
theorem Rests.after {o : Outcome} (rests : s.Rests o) (uncounted : o.ending.steps = 0) :
    s.after o.steps = some o.final := by
  induction rests with
  | rest stopped =>
    dsimp only at uncounted ⊢
    rw [uncounted]
    rfl
  | @next s t o stepped _ ih =>
    have count : (o.later 1).steps = o.steps + 1 := Nat.add_comm 1 o.steps
    rw [count, Interpreter.after, stepped]
    exact ih uncounted

/-- Whether and how a store fails depends neither on the value nor on the input. -/
private theorem store_failed {ins : Instruction} {length value : Cell} {f : Failure}
    (failed : s.store ins length value = .error (.failed f)) :
    ¬ s.memory.Contains ins.dest ∧
      ∀ input other, (s.refill input).store ins length other = .error (.failed f) := by
  unfold store at failed
  split at failed
  · cases failed
  · next outside =>
    cases failed
    exact ⟨mt Memory.contains_iff.mp outside, fun _ _ => if_neg outside⟩

/-- An instruction that reads input fails only because its destination is outside memory, and it
does so whatever it reads. -/
theorem perform_input_failed {ins : Instruction} {f : Failure} (op : ins.op = .input)
    (failed : s.perform ins = .error (.failed f)) :
    ¬ s.memory.Contains ins.dest ∧
      ∀ value rest, (s.refill (value :: rest)).perform ins = .error (.failed f) := by
  cases pending : s.input with
  | nil => simp [perform, op, pending] at failed
  | cons first others =>
    simp only [perform, op, pending] at failed
    obtain ⟨outside, always⟩ := store_failed failed
    refine ⟨outside, fun value rest => ?_⟩
    simp only [perform, op, refill]
    exact always rest value

private theorem perform_failed {ins : Instruction} {f : Failure} {input : List Cell}
    (failed : s.perform ins = .error (.failed f)) (fed : ins.op = .input → input ≠ []) :
    (s.refill input).perform ins = .error (.failed f) := by
  cases op : ins.op with
  | add | mul | lessThan | equals =>
    simp only [perform, op] at failed ⊢
    exact (store_failed failed).2 input _
  | input =>
    obtain ⟨value, rest, rfl⟩ := List.exists_cons_of_ne_nil (fed op)
    exact (perform_input_failed op failed).2 value rest
  | output | jumpIfTrue | jumpIfFalse | halt => simp [perform, op] at failed
  | unknown code => simpa [perform, op, refill] using failed

/-- An instruction that fails does so again whatever the input, unless it reads input and there is
none. -/
theorem step_failed {f : Failure} {input : List Cell} (failed : s.step = .error (.failed f))
    (fed : s.AtInput → input ≠ []) : (s.refill input).step = .error (.failed f) := by
  unfold step at failed ⊢
  simp only [refill]
  cases decoded : Instruction.decode s.memory s.pc with
  | error undecoded => simpa only [decoded] using failed
  | ok ins =>
    simp only [decoded] at failed
    exact perform_failed failed fun op => fed ⟨ins, decoded, op⟩

end Interpreter

namespace Machine

variable {m : Machine} {budget : Nat} {input : Option Cell} {f : Failure}

/-- A machine whose next instruction fails stops where it stands, whatever it is given. -/
theorem execute_of_failed {left : List Cell} (alive : m.halted = false)
    (refused : (m.plain left).step = .error (.failed f))
    (fed : m.Faces .input → input.toList ≠ []) (positive : 0 < budget) :
    m.execute budget input = some ⟨m.reset, .error f⟩ := by
  have again := Interpreter.step_failed refused fed
  have other : (m.plain left).refill input.toList = m.plain input.toList := rfl
  obtain ⟨budget, rfl⟩ := Nat.exists_eq_add_one.mpr positive
  rw [execute_eq alive, ← other, Interpreter.run, again, Option.map_some, other]
  simp [stopAt, moved, reset, plain, Interpreter.Ending.steps]

/-- A machine that is given no input waits at an instruction that reads it. -/
theorem run_of_faces_input (alive : m.halted = false) (reading : m.Faces .input)
    (positive : 0 < budget) : m.run budget = some ⟨m.reset, .ok .awaiting⟩ := by
  have stopped : (m.plain []).step = .error .starved :=
    (Interpreter.step_eq_starved_iff _).mpr ⟨rfl, reading⟩
  obtain ⟨budget, rfl⟩ := Nat.exists_eq_add_one.mpr positive
  rw [run, execute_eq alive, Option.toList_none, Interpreter.run, stopped, Option.map_some]
  simp [stopAt, moved, reset, plain, Interpreter.Ending.steps]

/-- A machine that fails stands where the plain interpreter fails, after as many instructions. -/
theorem after_of_execute {stop : Stop} (alive : m.halted = false)
    (executed : m.execute budget input = some stop) (failed : stop.status = .error f) :
    stop.machine.halted = false ∧ ∃ left,
      (m.plain input.toList).after stop.machine.steps = some (stop.machine.plain left) ∧
        (stop.machine.plain left).step = .error (.failed f) := by
  rw [execute_eq alive] at executed
  obtain ⟨o, answer, rfl⟩ := Option.map_eq_some_iff.mp executed
  have rests := Interpreter.rests_of_run answer
  have ending : o.ending = .failed f := by
    cases ending : o.ending <;> simp_all [stopAt]
  have stop : m.reset.stopAt o = ⟨m.reset.moved o.final o.steps, .error f⟩ := by
    simp only [stopAt, ending]
  have place : (m.reset.moved o.final o.steps).plain o.final.input = o.final := by
    simp [plain, moved]
  have steps : (m.reset.moved o.final o.steps).steps = o.steps := Nat.zero_add o.steps
  rw [stop]
  refine ⟨alive, o.final.input, ?_, ?_⟩
  · rw [steps, place]
    exact rests.after (by rw [ending]; rfl)
  · rw [place, ← ending]
    exact rests.step_final

/-- A machine that fails has carried out the instructions that it counts and no part of another. It
stands at the instruction that fails, which fails in the same way whenever the machine is set going
again, and nothing changes by that. Only when the instruction reads input, its destination being
outside memory, does the machine wait instead of failing if it is given none. -/
theorem failure_stable {stop : Stop} (alive : m.halted = false)
    (executed : m.execute budget input = some stop) (failed : stop.status = .error f) :
    stop.machine.halted = false ∧
    (∃ left, (m.plain input.toList).after stop.machine.steps = some (stop.machine.plain left) ∧
      (stop.machine.plain left).step = .error (.failed f)) ∧
    (∀ value budget, 0 < budget →
      stop.machine.resume budget value = some ⟨stop.machine.reset, .error f⟩) ∧
    (¬ stop.machine.Faces .input → ∀ budget, 0 < budget →
      stop.machine.run budget = some ⟨stop.machine.reset, .error f⟩) ∧
    (stop.machine.Faces .input → ∀ budget, 0 < budget →
      stop.machine.run budget = some ⟨stop.machine.reset, .ok .awaiting⟩) ∧
    ∀ ins, Instruction.decode stop.machine.memory stop.machine.pc = .ok ins → ins.op = .input →
      ¬ stop.machine.memory.Contains ins.dest := by
  obtain ⟨running, left, reached, refused⟩ := after_of_execute alive executed failed
  refine ⟨running, ⟨left, reached, refused⟩, ?_, ?_, ?_, ?_⟩
  · intro value budget positive
    have fed : stop.machine.Faces .input → (some value).toList ≠ [] :=
      fun _ => List.cons_ne_nil value []
    exact execute_of_failed running refused fed positive
  · intro elsewhere budget positive
    exact execute_of_failed running refused (fun reading => (elsewhere reading).elim) positive
  · intro reading budget positive
    exact run_of_faces_input running reading positive
  · intro ins decoded op
    have failing : (stop.machine.plain left).perform ins = .error (.failed f) := by
      rw [← refused, Interpreter.step, plain, decoded]
    exact (Interpreter.perform_input_failed op failing).1

/-- A program that puts a product without operands behind its first instruction. -/
def overwriter : Memory :=
  .ofList [1101, 1, 1, 4, 0, 0]

/-- A program that reads a value for an address that it does not have. -/
def misreader : Memory :=
  .ofList [104, 7, 3, 9]

theorem failure_stable_overwriter_misreader :
    (∃ stop f, (load overwriter).run 9 = some stop ∧ stop.status = .error f ∧
      stop.machine.steps = 1 ∧ stop.machine.memory = .ofList [1101, 1, 1, 4, 2, 0] ∧
        stop.machine.resume 1 5 = some ⟨stop.machine.reset, .error f⟩ ∧
          stop.machine.run 1 = some ⟨stop.machine.reset, .error f⟩) ∧
    ∃ stop f, (load misreader).resume 9 5 = some stop ∧ stop.status = .error f ∧
      stop.machine.steps = 1 ∧ stop.machine.output = #[7] ∧
        stop.machine.resume 1 6 = some ⟨stop.machine.reset, .error f⟩ ∧
          stop.machine.run 1 = some ⟨stop.machine.reset, .ok .awaiting⟩ := by
  constructor
  · obtain ⟨stop, f, executed, failed, steps, memory, pc⟩ : ∃ stop f,
        (load overwriter).run 9 = some stop ∧ stop.status = .error f ∧ stop.machine.steps = 1 ∧
          stop.machine.memory = .ofList [1101, 1, 1, 4, 2, 0] ∧ stop.machine.pc = 4 :=
      ⟨_, _, rfl, rfl, rfl, rfl, rfl⟩
    obtain ⟨-, -, resumed, ran, -⟩ := failure_stable rfl executed failed
    have elsewhere : ¬ stop.machine.Faces .input := by
      rintro ⟨ins, decoded, -⟩
      rw [memory, pc] at decoded
      cases decoded
    exact ⟨stop, f, executed, failed, steps, memory, resumed 5 1 Nat.one_pos,
      ran elsewhere 1 Nat.one_pos⟩
  · obtain ⟨stop, f, executed, failed, steps, output, reading⟩ : ∃ stop f,
        (load misreader).resume 9 5 = some stop ∧ stop.status = .error f ∧
          stop.machine.steps = 1 ∧ stop.machine.output = #[7] ∧ stop.machine.Faces .input :=
      ⟨_, _, rfl, rfl, rfl, rfl, _, rfl, rfl⟩
    obtain ⟨-, -, resumed, -, waits, -⟩ := failure_stable rfl executed failed
    exact ⟨stop, f, executed, failed, steps, output, resumed 6 1 Nat.one_pos,
      waits reading 1 Nat.one_pos⟩

end Machine

end CellMachine
