import CellMachine.Instruction.Decode

/-! # Causes of failed instructions

An instruction is refused for one of three causes: its operation is not known, a mode is not known,
or an address lies outside memory. In particular no instruction fails for want of input.
-/

namespace CellMachine

/-- The causes for which an instruction may fail. -/
def Cause.OfInstruction (cause : Cause) : Prop :=
  cause = .invalidOpcode ∨ cause = .invalidMode ∨ cause = .addressOutOfBounds

/-- An instruction does not fail for any other cause. -/
theorem Cause.OfInstruction.ne {cause other : Cause} (known : cause.OfInstruction)
    (alien : ¬ other.OfInstruction) : cause ≠ other := by
  rintro rfl
  exact alien known

/-- The result is not a failure for the given cause. -/
def Avoids {α : Type} (cause : Cause) (result : Except Failure α) : Prop :=
  ∀ f, result = .error f → f.cause ≠ cause

namespace Avoids

variable {α β : Type} {cause : Cause}

theorem ok (value : α) : Avoids cause (.ok value) :=
  nofun

theorem error {f : Failure} (other : f.cause ≠ cause) :
    Avoids cause (.error f : Except Failure α) := by
  rintro _ ⟨⟩
  exact other

theorem map {result : Except Failure α} (avoids : Avoids cause result) (f : α → β) :
    Avoids cause (result.map f) := by
  cases result with
  | error g => exact .error (avoids g rfl)
  | ok value => exact .ok _

end Avoids

theorem Memory.read_cause {m : Memory} {address : Cell} {f : Failure}
    (failed : m.read address = .error f) : f.cause = .addressOutOfBounds := by
  unfold Memory.read at failed
  split at failed <;> cases failed
  rfl

theorem Memory.write_cause {m : Memory} {address value : Cell} {f : Failure}
    (failed : m.write address value = .error f) : f.cause = .addressOutOfBounds := by
  unfold Memory.write at failed
  split at failed <;> cases failed
  rfl

private theorem Operand.resolve_cause {operand : Operand} {m : Memory} {pc word : Cell}
    {f : Failure} (failed : operand.resolve m pc word = .error f) : f.cause.OfInstruction := by
  unfold Operand.resolve at failed
  split at failed
  · next unread =>
    cases failed
    exact .inr (.inr (Memory.read_cause unread))
  · split at failed
    · exact .inr (.inr (Memory.read_cause failed))
    · cases failed
    · cases failed
      exact .inr (.inl rfl)

namespace Instruction

/-- Naming the operation keeps the cause. -/
theorem unresolved_cause (ins : Instruction) (pc : Cell) (f : Failure) :
    (ins.unresolved pc f).failure.cause = f.cause := by
  unfold unresolved
  dsimp only
  split <;> rfl

/-- An instruction that cannot be decoded has one of the three causes. -/
theorem decode_cause {m : Memory} {pc : Cell} {u : Undecoded}
    (failed : decode m pc = .error u) : u.failure.cause.OfInstruction := by
  have unread {ins : Instruction} {address : Cell} {f : Failure}
      (failed : m.read address = .error f) : (ins.unresolved pc f).failure.cause.OfInstruction := by
    rw [unresolved_cause]
    exact .inr (.inr (Memory.read_cause failed))
  have unresolved {ins : Instruction} {operand : Operand} {word : Cell} {f : Failure}
      (failed : operand.resolve m pc word = .error f) :
      (ins.unresolved pc f).failure.cause.OfInstruction := by
    rw [unresolved_cause]
    exact Operand.resolve_cause failed
  unfold decode at failed
  cases fetched : m.read pc with
  | error f =>
    simp only [fetched] at failed
    cases failed
    exact .inr (.inr (Memory.read_cause fetched :))
  | ok word =>
    simp only [fetched] at failed
    by_cases refused : word < 0 ∨ (Opcode.ofCode (word % 100)).isKnown = false
    · simp only [refused, ↓reduceIte] at failed
      cases failed
      exact .inl rfl
    · simp only [refused, ↓reduceIte] at failed
      cases shape : (Opcode.ofCode (word % 100)).shape with
      | binary =>
        simp only [shape] at failed
        cases first : Operand.first.resolve m pc word with
        | error f => simp only [first] at failed; cases failed; exact unresolved first
        | ok a =>
          cases second : Operand.second.resolve m pc word with
          | error f => simp only [first, second] at failed; cases failed; exact unresolved second
          | ok b =>
            cases third : m.read (pc + 3) with
            | error f =>
              simp only [first, second, third] at failed
              cases failed
              exact unread third
            | ok dest => simp only [first, second, third] at failed; cases failed
      | jump =>
        simp only [shape] at failed
        cases first : Operand.first.resolve m pc word with
        | error f => simp only [first] at failed; cases failed; exact unresolved first
        | ok a =>
          cases second : Operand.second.resolve m pc word with
          | error f => simp only [first, second] at failed; cases failed; exact unresolved second
          | ok dest => simp only [first, second] at failed; cases failed
      | store =>
        simp only [shape] at failed
        cases first : m.read (pc + 1) with
        | error f => simp only [first] at failed; cases failed; exact unread first
        | ok dest => simp only [first] at failed; cases failed
      | emit =>
        simp only [shape] at failed
        cases first : Operand.first.resolve m pc word with
        | error f => simp only [first] at failed; cases failed; exact unresolved first
        | ok a => simp only [first] at failed; cases failed
      | plain =>
        simp only [shape] at failed
        cases failed

end Instruction

end CellMachine
