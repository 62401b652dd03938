import CellMachine.Proofs.Machine.Calls

/-! # More memory than a program needs

Zeros behind the cells of a memory are not noticed by a machine that stays within the memory as it
was. As long as no access lies outside, an instruction is decoded and carried out in the same way,
and the zeros stay as they are. A machine with more memory can therefore be put in the place of
another one: it gives the same answers, call by call, until the other one fails for an address out
of bounds.
-/

namespace CellMachine

/-- The result is not the failure of an access outside memory. -/
abbrev InBounds {α : Type} (result : Except Failure α) : Prop :=
  Avoids .addressOutOfBounds result

/-! ## Memory -/

namespace Memory

/-- The memory with zeros behind its cells. -/
def padded (zeros : Nat) (m : Memory) : Memory :=
  ⟨m.cells ++ Array.replicate zeros 0⟩

/-- A memory has at least no cells as it is. -/
theorem grow_zero (m : Memory) : m.grow 0 = m := by
  simp [grow]

variable {m written : Memory} {address value : Cell}

theorem Contains.padded (inside : m.Contains address) (zeros : Nat) :
    (m.padded zeros).Contains address := by
  refine ⟨inside.1, ?_⟩
  have bound := inside.2
  simp only [Memory.padded, Array.size_append]
  omega

private theorem read_padded (found : m.read address = .ok value) (zeros : Nat) :
    (m.padded zeros).read address = .ok value := by
  unfold read at found ⊢
  split at found
  · next inside =>
    rw [dif_pos (inside.padded zeros), ← found]
    simp only [padded, Array.getElem_append_left inside.2]
  · cases found

theorem write_padded (stored : m.write address value = .ok written) (zeros : Nat) :
    (m.padded zeros).write address value = .ok (written.padded zeros) := by
  unfold write at stored ⊢
  split at stored
  · next inside =>
    cases stored
    rw [dif_pos (inside.padded zeros)]
    simp only [padded, Array.set_append_left inside.2]
  · cases stored

end Memory

/-! ## Instructions -/

/-- Reading a padded memory gives the same value, unless the address is out of bounds. -/
theorem Memory.read_padded_cases (m : Memory) (address : Cell) (zeros : Nat) :
    (∃ value, m.read address = .ok value ∧ (m.padded zeros).read address = .ok value) ∨
      ∃ f, m.read address = .error f ∧ f.cause = .addressOutOfBounds := by
  cases found : m.read address with
  | ok value => exact .inl ⟨value, rfl, read_padded found zeros⟩
  | error f => exact .inr ⟨f, rfl, read_cause found⟩

/-- An operand has the same value in a padded memory, unless it is out of bounds. -/
theorem Operand.resolve_padded_cases (operand : Operand) (m : Memory) (pc word : Cell)
    (zeros : Nat) :
    operand.resolve (m.padded zeros) pc word = operand.resolve m pc word ∨
      ∃ f, operand.resolve m pc word = .error f ∧ f.cause = .addressOutOfBounds := by
  unfold resolve
  obtain ⟨value, found, foundToo⟩ | ⟨f, failed, cause⟩ :=
    m.read_padded_cases (pc + operand.offset) zeros
  · simp only [found, foundToo]
    cases operand.mode word with
    | position =>
      obtain ⟨target, reached, reachedToo⟩ | ⟨f, failed, cause⟩ := m.read_padded_cases value zeros
      · simp only [reached, reachedToo, true_or]
      · simp only [failed]
        exact .inr ⟨f, rfl, cause⟩
    | immediate | unknown digit => exact .inl rfl
  · simp only [failed]
    exact .inr ⟨f, rfl, cause⟩

/-- An instruction is decoded in the same way in a padded memory, unless a word of it or an operand
is out of bounds. -/
theorem Instruction.decode_padded {m : Memory} {pc : Cell}
    (inside : ∀ u, decode m pc = .error u → u.failure.cause ≠ .addressOutOfBounds) (zeros : Nat) :
    decode (m.padded zeros) pc = decode m pc := by
  -- A part that is out of bounds in the memory as it is would be the failure.
  have impossible {ins : Instruction} {f : Failure} (cause : f.cause = .addressOutOfBounds)
      (failed : decode m pc = .error (ins.unresolved pc f)) : False :=
    inside _ failed ((unresolved_cause ins pc f).trans cause)
  unfold decode at impossible inside ⊢
  obtain ⟨word, fetched, fetchedToo⟩ | ⟨f, failed, cause⟩ := m.read_padded_cases pc zeros
  · simp only [fetched, fetchedToo] at impossible ⊢
    split
    · rfl
    · next known =>
      simp only [known, ↓reduceIte] at impossible
      cases shape : (Opcode.ofCode (word % 100)).shape with
      | binary =>
        simp only [shape] at impossible ⊢
        obtain same | ⟨f, failed, cause⟩ := Operand.first.resolve_padded_cases m pc word zeros
        · rw [same]
          cases first : Operand.first.resolve m pc word with
          | error f => rfl
          | ok a =>
            simp only [first] at impossible ⊢
            obtain same | ⟨f, failed, cause⟩ := Operand.second.resolve_padded_cases m pc word zeros
            · rw [same]
              cases second : Operand.second.resolve m pc word with
              | error f => rfl
              | ok b =>
                simp only [second] at impossible ⊢
                obtain ⟨dest, third, thirdToo⟩ | ⟨f, failed, cause⟩ :=
                  m.read_padded_cases (pc + 3) zeros
                · simp only [third, thirdToo]
                · exact (impossible cause (by simp only [failed]; rfl)).elim
            · exact (impossible cause (by simp only [failed]; rfl)).elim
        · exact (impossible cause (by simp only [failed]; rfl)).elim
      | jump =>
        simp only [shape] at impossible ⊢
        obtain same | ⟨f, failed, cause⟩ := Operand.first.resolve_padded_cases m pc word zeros
        · rw [same]
          cases first : Operand.first.resolve m pc word with
          | error f => rfl
          | ok a =>
            simp only [first] at impossible ⊢
            obtain same | ⟨f, failed, cause⟩ := Operand.second.resolve_padded_cases m pc word zeros
            · rw [same]
            · exact (impossible cause (by simp only [failed]; rfl)).elim
        · exact (impossible cause (by simp only [failed]; rfl)).elim
      | store =>
        simp only [shape] at impossible ⊢
        obtain ⟨dest, first, firstToo⟩ | ⟨f, failed, cause⟩ := m.read_padded_cases (pc + 1) zeros
        · simp only [first, firstToo]
        · exact (impossible cause (by simp only [failed]; rfl)).elim
      | emit =>
        simp only [shape] at impossible ⊢
        obtain same | ⟨f, failed, cause⟩ := Operand.first.resolve_padded_cases m pc word zeros
        · rw [same]
        · exact (impossible cause (by simp only [failed]; rfl)).elim
      | plain => rfl
  · exact (inside _ (by simp only [failed]; rfl) cause).elim

/-! ## Machines -/

namespace Machine

def padded (zeros : Nat) (m : Machine) : Machine :=
  { m with memory := m.memory.padded zeros }

end Machine

def Step.padded (zeros : Nat) : Step → Step
  | next m input => .next (m.padded zeros) input
  | suspended m => .suspended (m.padded zeros)
  | halted m output => .halted (m.padded zeros) output
  | failed m f => .failed (m.padded zeros) f

def Stop.padded (zeros : Nat) (stop : Stop) : Stop :=
  { stop with machine := stop.machine.padded zeros }

namespace Machine

variable {m : Machine} {input : Option Cell} {budget : Nat}

private theorem store_padded {ins : Instruction} {value : Cell}
    (inside : ∀ m' f, m.store ins value input = .failed m' f → f.cause ≠ .addressOutOfBounds)
    (zeros : Nat) :
    (m.padded zeros).store ins value input = (m.store ins value input).padded zeros := by
  unfold store at inside ⊢
  cases stored : m.memory.write ins.dest value with
  | ok memory =>
    simp only [padded, Memory.write_padded stored zeros]
    rfl
  | error f =>
    rw [stored] at inside
    exact (inside m _ rfl (Memory.write_cause stored :)).elim

/-- An instruction does the same in a padded memory, unless it fails for an address out of bounds.
-/
theorem step_padded
    (inside : ∀ m' f, m.step input = .failed m' f → f.cause ≠ .addressOutOfBounds) (zeros : Nat) :
    (m.padded zeros).step input = (m.step input).padded zeros := by
  unfold step at inside ⊢
  have inBounds (u : Undecoded) (failed : Instruction.decode m.memory m.pc = .error u) :
      u.failure.cause ≠ .addressOutOfBounds := by
    rw [failed] at inside
    exact inside m _ rfl
  have decoded : Instruction.decode (m.padded zeros).memory (m.padded zeros).pc =
      Instruction.decode m.memory m.pc := Instruction.decode_padded inBounds zeros
  rw [decoded]
  cases result : Instruction.decode m.memory m.pc with
  | error undecoded => rfl
  | ok ins =>
    obtain ⟨op, a, b, dest⟩ := ins
    simp only [result] at inside
    cases op with
    | add | mul | lessThan | equals => exact store_padded inside zeros
    | input =>
      cases input with
      | none => rfl
      | some value => exact store_padded inside zeros
    | output | halt | unknown code => rfl
    | jumpIfTrue =>
      dsimp only
      split <;> rfl
    | jumpIfFalse =>
      dsimp only
      split <;> rfl

private theorem runFrom_padded
    (inside : ∀ stop, m.runFrom budget input = some stop → InBounds stop.status) (zeros : Nat) :
    (m.padded zeros).runFrom budget input = (m.runFrom budget input).map (Stop.padded zeros) := by
  induction budget generalizing m input with
  | zero => rfl
  | succ budget ih =>
    unfold runFrom at inside ⊢
    have stepped : (m.padded zeros).step input = (m.step input).padded zeros := by
      refine step_padded (fun m' f failed => ?_) zeros
      rw [failed] at inside
      exact inside _ rfl f rfl
    rw [stepped]
    cases result : m.step input with
    | next next rest =>
      simp only [result] at inside
      exact ih inside
    | suspended _ | halted _ _ | failed _ _ => rfl

/-- A machine with more memory stops in the same way, unless the machine as it is fails for an
address out of bounds. -/
theorem execute_padded
    (inside : ∀ stop, m.execute budget input = some stop → InBounds stop.status) (zeros : Nat) :
    (m.padded zeros).execute budget input = (m.execute budget input).map (Stop.padded zeros) := by
  have same : (m.padded zeros).halted = m.halted := rfl
  unfold execute at inside ⊢
  rw [same]
  split
  · rfl
  · next alive =>
    rw [if_neg alive] at inside
    exact runFrom_padded inside zeros

end Machine

/-! ## Calls -/

def Reply.InBounds : Reply → Prop
  | stopped status => CellMachine.InBounds status
  | took _ => True

def Response.padded (zeros : Nat) (response : Response) : Response :=
  { response with machine := response.machine.padded zeros }

namespace Machine

variable {m : Machine} {budget : Nat}

private theorem call_padded {call : Call}
    (inside : ∀ response, m.call budget call = some response → response.reply.InBounds)
    (zeros : Nat) :
    (m.padded zeros).call budget call = (m.call budget call).map (Response.padded zeros) := by
  have stopped (input : Option Cell) (inside : ∀ response,
      (m.execute budget input).map Response.ofStop = some response → response.reply.InBounds) :
      ((m.padded zeros).execute budget input).map Response.ofStop =
        ((m.execute budget input).map Response.ofStop).map (Response.padded zeros) := by
    have inBounds (stop : Stop) (answer : m.execute budget input = some stop) :
        InBounds stop.status :=
      inside (.ofStop stop) (by rw [answer]; rfl)
    rw [execute_padded inBounds zeros, Option.map_map, Option.map_map]
    rfl
  cases call with
  | run => exact stopped none inside
  | resume value => exact stopped (some value) inside
  | takeOutput => rfl

private theorem call_padded_eq_some {call : Call} {response : Response}
    (called : m.call budget call = some response) (inside : response.reply.InBounds) (zeros : Nat) :
    (m.padded zeros).call budget call = some (response.padded zeros) := by
  have only (other : Response) (same : m.call budget call = some other) :
      other.reply.InBounds := by
    cases called.symm.trans same
    exact inside
  rw [call_padded only zeros, called, Option.map_some]

/-- A machine with more memory gives the same responses, as long as the machine as it is does not
fail for an address out of bounds. -/
theorem calls_padded {calls : List Call} {responses : List Response}
    (answered : m.calls budget calls = some responses)
    (inside : ∀ response ∈ responses, response.reply.InBounds) (zeros : Nat) :
    (m.padded zeros).calls budget calls = some (responses.map (Response.padded zeros)) := by
  induction calls generalizing m responses with
  | nil =>
    cases answered
    rfl
  | cons call rest ih =>
    obtain ⟨response, called, answered⟩ := Option.bind_eq_some_iff.mp answered
    obtain ⟨others, further, rfl⟩ := Option.map_eq_some_iff.mp answered
    obtain ⟨own, inside⟩ := List.forall_mem_cons.mp inside
    refine Option.bind_eq_some_iff.mpr ⟨_, call_padded_eq_some called own zeros, ?_⟩
    exact Option.map_eq_some_iff.mpr ⟨_, ih further inside, rfl⟩

/-- A call that does not return on a machine does not return on the machine with more memory. -/
theorem calls_padded_eq_none {calls : List Call} {call : Call} {responses : List Response}
    (answered : m.calls budget calls = some responses)
    (inside : ∀ response ∈ responses, response.reply.InBounds)
    (stuck : m.calls budget (calls ++ [call]) = none) (zeros : Nat) :
    (m.padded zeros).calls budget (calls ++ [call]) = none := by
  induction calls generalizing m responses with
  | nil =>
    have alone (m : Machine) : m.calls budget [call] = (m.call budget call).map ([·]) := by
      cases called : m.call budget call <;> simp [Machine.calls, called]
    rw [List.nil_append, alone, Option.map_eq_none_iff] at stuck ⊢
    rw [call_padded (by simp [stuck]) zeros, stuck, Option.map_none]
  | cons first rest ih =>
    obtain ⟨response, called, answered⟩ := Option.bind_eq_some_iff.mp answered
    obtain ⟨others, further, rfl⟩ := Option.map_eq_some_iff.mp answered
    obtain ⟨own, inside⟩ := List.forall_mem_cons.mp inside
    simp only [List.cons_append, Machine.calls, called, Option.bind_some,
      Option.map_eq_none_iff] at stuck
    simp only [List.cons_append, Machine.calls, call_padded_eq_some called own zeros,
      Option.bind_some, Option.map_eq_none_iff]
    exact ih further inside stuck

end Machine

end CellMachine
