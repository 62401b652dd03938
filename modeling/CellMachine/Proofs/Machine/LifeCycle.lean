import CellMachine.Proofs.Machine.Calls

/-! # The life of a machine

A machine waits, halts or fails each time it is set going. When it waits it stands at an instruction
that reads input, and when it halts it stands at one that halts and has handed over all of its
output. It counts as halted from then on and never before. Its memory keeps its size throughout.
-/

namespace CellMachine

/-! ## Where the plain interpreter comes to rest -/

namespace Interpreter

variable {s t : Interpreter}

/-- Only an instruction that halts brings the interpreter to a halt. -/
theorem exists_halt_of_step (stopped : s.step = .error .halted) :
    ∃ ins, Instruction.decode s.memory s.pc = .ok ins ∧ ins.op = .halt := by
  unfold step at stopped
  split at stopped
  · cases stopped
  · next ins decoded =>
    have stored (t : Interpreter) (length value : Cell) :
        t.store ins length value ≠ .error .halted := by
      unfold store
      split <;> simp
    refine ⟨ins, decoded, ?_⟩
    cases op : ins.op with
    | halt => rfl
    | input => cases pending : s.input <;> simp [perform, op, pending, stored] at stopped
    | add | mul | lessThan | equals => simp [perform, op, stored] at stopped
    | output | jumpIfTrue | jumpIfFalse | unknown code => simp [perform, op] at stopped

private theorem store_size {ins : Instruction} {length value : Cell}
    (stored : s.store ins length value = .ok t) : t.memory.size = s.memory.size := by
  unfold store at stored
  split at stored
  · cases stored
    simp [Memory.size, Memory.ofList, Memory.toList]
  · cases stored

private theorem perform_size {ins : Instruction} (performed : s.perform ins = .ok t) :
    t.memory.size = s.memory.size := by
  obtain ⟨pc, memory, input, output⟩ := s
  obtain ⟨op, a, b, dest⟩ := ins
  cases op with
  | add | mul | lessThan | equals => exact store_size performed
  | input =>
    cases input with
    | nil => cases performed
    | cons value rest => exact (store_size performed :)
  | output | jumpIfTrue | jumpIfFalse => cases performed; rfl
  | halt | unknown code => cases performed

/-- No instruction changes the size of the memory. -/
theorem step_size (stepped : s.step = .ok t) : t.memory.size = s.memory.size := by
  unfold step at stepped
  split at stepped
  · cases stepped
  · exact perform_size stepped

theorem Rests.size_memory {o : Outcome} (rests : s.Rests o) :
    o.final.memory.size = s.memory.size := by
  induction rests with
  | rest => rfl
  | next stepped _ ih => exact ih.trans (step_size stepped)

end Interpreter

/-! ## Machines that are set going -/

/-- The instruction at the program counter is of the given operation. -/
def Machine.Faces (m : Machine) (op : Opcode) : Prop :=
  ∃ ins, Instruction.decode m.memory m.pc = .ok ins ∧ ins.op = op

def Reply.Halts (reply : Reply) : Prop :=
  ∃ output, reply = .stopped (.ok (.halted output))

/-- A machine goes through a call as a machine should. -/
structure Response.Lawful (m : Machine) (response : Response) : Prop where
  /-- A machine that waits stands at an instruction that reads input. -/
  waiting : response.reply = .stopped (.ok .awaiting) → response.machine.Faces .input
  /-- A machine that has just halted stands at an instruction that halts and keeps no output. -/
  halting : response.reply.Halts → response.machine.Faces .halt ∧ response.machine.output = #[]
  /-- A machine counts as halted once a call has brought it to a halt. -/
  flag : response.machine.halted = true ↔ m.halted = true ∨ response.reply.Halts
  size : response.machine.memory.size = m.memory.size

namespace Machine

variable {m : Machine} {budget : Nat}

private theorem execute_of_halted (halted : m.halted = true) (budget : Nat) (input : Option Cell) :
    m.execute budget input = some ⟨m, .error ⟨.alreadyHalted, []⟩⟩ := by
  rw [execute, if_pos halted]

theorem lawful_of_execute {input : Option Cell} {stop : Stop}
    (executed : m.execute budget input = some stop) : Response.Lawful m (.ofStop stop) := by
  cases halted : m.halted with
  | true =>
    rw [execute_of_halted halted] at executed
    cases executed
    exact ⟨by rintro ⟨⟩, by rintro ⟨_, ⟨⟩⟩, by simp [Response.ofStop, halted], rfl⟩
  | false =>
    rw [execute_eq halted] at executed
    obtain ⟨o, answer, rfl⟩ := Option.map_eq_some_iff.mp executed
    have rests := Interpreter.rests_of_run answer
    have size : o.final.memory.size = m.memory.size := rests.size_memory
    cases ending : o.ending with
    | starved =>
      have stop : m.reset.stopAt o = ⟨m.reset.moved o.final o.steps, .ok .awaiting⟩ := by
        simp only [stopAt, ending]
      rw [stop]
      refine ⟨fun _ => (rests.input_of_starved ending).2, by rintro ⟨_, ⟨⟩⟩, ?_, size⟩
      simp [Response.ofStop, moved, reset, halted, Reply.Halts]
    | halted =>
      have stop : m.reset.stopAt o =
          ⟨{ m.reset.moved o.final o.steps with output := #[], halted := true },
            .ok (.halted o.final.output)⟩ := by
        simp only [stopAt, ending]
      rw [stop]
      have faces := Interpreter.exists_halt_of_step (ending ▸ rests.step_final)
      refine ⟨by rintro ⟨⟩, fun _ => ⟨faces, rfl⟩, ?_, size⟩
      simp [Response.ofStop, Reply.Halts]
    | failed f =>
      have stop : m.reset.stopAt o = ⟨m.reset.moved o.final o.steps, .error f⟩ := by
        simp only [stopAt, ending]
      rw [stop]
      refine ⟨by rintro ⟨⟩, by rintro ⟨_, ⟨⟩⟩, ?_, size⟩
      simp [Response.ofStop, moved, reset, halted, Reply.Halts]

/-- A machine fails for one of the causes of an instruction, unless it has halted before. -/
theorem cause_of_execute {input : Option Cell} {stop : Stop} {f : Failure}
    (alive : m.halted = false) (executed : m.execute budget input = some stop)
    (failed : stop.status = .error f) : f.cause.OfInstruction := by
  rw [execute_eq alive] at executed
  obtain ⟨o, answer, rfl⟩ := Option.map_eq_some_iff.mp executed
  refine (Interpreter.rests_of_run answer).cause_of_failed ?_
  cases ending : o.ending <;> simp_all [stopAt]

/-- A machine refuses to be set going exactly when it has halted before. -/
theorem refuses_iff {input : Option Cell} :
    (∃ stop f, m.execute budget input = some stop ∧ stop.status = .error f ∧
      f.cause = .alreadyHalted) ↔ m.halted = true := by
  constructor
  · rintro ⟨stop, f, executed, failed, refused⟩
    cases alive : m.halted with
    | true => rfl
    | false =>
      have known := cause_of_execute alive executed failed
      obtain cause | cause | cause := known <;> simp [cause] at refused
  · intro halted
    exact ⟨_, _, execute_of_halted halted budget input, rfl, rfl⟩

/-! ## Histories of calls -/

theorem lawful_of_call {call : Call} {response : Response}
    (answered : m.call budget call = some response) : response.Lawful m := by
  cases call with
  | run | resume value =>
    obtain ⟨stop, executed, rfl⟩ := Option.map_eq_some_iff.mp answered
    exact lawful_of_execute executed
  | takeOutput =>
    cases answered
    exact ⟨nofun, nofun, by simp [takeOutput, Reply.Halts], rfl⟩

/-- Along a history of calls, a machine counts as halted from the call that brings it to a halt. -/
theorem lawful_of_calls {calls : List Call} {before after : List Response} {response : Response}
    (answered : m.calls budget calls = some (before ++ response :: after)) :
    (response.reply = .stopped (.ok .awaiting) → response.machine.Faces .input) ∧
      (response.reply.Halts → response.machine.Faces .halt ∧ response.machine.output = #[]) ∧
      (response.machine.halted = true ↔
        m.halted = true ∨ ∃ earlier ∈ before ++ [response], earlier.reply.Halts) ∧
      response.machine.memory.size = m.memory.size := by
  induction calls generalizing m before with
  | nil => simp [Machine.calls] at answered
  | cons call rest ih =>
    obtain ⟨first, called, answered⟩ := Option.bind_eq_some_iff.mp answered
    obtain ⟨others, further, split⟩ := Option.map_eq_some_iff.mp answered
    have lawful := lawful_of_call called
    cases before with
    | nil =>
      obtain ⟨rfl, -⟩ := List.cons.inj split
      refine ⟨lawful.waiting, lawful.halting, ?_, lawful.size⟩
      simpa using lawful.flag
    | cons earlier before =>
      obtain ⟨rfl, rfl⟩ := List.cons.inj split
      obtain ⟨waiting, halting, flag, size⟩ := ih further
      refine ⟨waiting, halting, ?_, size.trans lawful.size⟩
      rw [flag, lawful.flag]
      simp only [List.cons_append, List.mem_cons, exists_eq_or_imp, or_assoc]

end Machine

end CellMachine
