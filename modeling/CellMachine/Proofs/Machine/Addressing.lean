import CellMachine.Proofs.Instruction.Sums
import CellMachine.Proofs.Machine.Run

/-! # Addressing

A jump may put any cell into the program counter, and addresses are cells whose sums wrap. In a
memory that is no longer than there are addresses, no sum does: neither a sum that is formed to
decode an instruction nor the one that leads to the instruction behind it. A program counter outside
memory is noticed as soon as the next instruction is fetched, before anything is added to it.
-/

namespace CellMachine

def Instruction.Jumps (ins : Instruction) : Prop :=
  ins.op = .jumpIfTrue ∧ ins.a ≠ 0 ∨ ins.op = .jumpIfFalse ∧ ins.a = 0

namespace Machine

variable {m n next : Machine} {input rest left : Option Cell} {ins : Instruction} {count : ℕ}

/-- The machine is past an instruction that was carried out, and its memory has kept its size. -/
structure Passes (m : Machine) (ins : Instruction) (next : Machine) : Prop where
  size : next.memory.size = m.memory.size
  pc : ins.Jumps ∧ next.pc = ins.dest ∨
    ¬ ins.Jumps ∧ next.pc = m.pc + Int64.ofNat ins.size

private theorem passes_of_store {value : Cell} (stored : m.store ins value input = .next next left)
    (straight : ¬ ins.Jumps) : m.Passes ins next := by
  unfold store at stored
  split at stored
  · next written =>
    cases stored
    exact ⟨Memory.size_write written, .inr ⟨straight, rfl⟩⟩
  · cases stored

/-- An instruction that is carried out is a jump that is taken, or leads to the one behind it. -/
theorem passes_of_step (stepped : m.step input = .next next left) :
    ∃ ins, Instruction.decode m.memory m.pc = .ok ins ∧ m.Passes ins next := by
  unfold step at stepped
  split at stepped
  · cases stepped
  · next ins decoded =>
    refine ⟨ins, decoded, ?_⟩
    cases op : ins.op with
    | add | mul | lessThan | equals =>
      simp only [op] at stepped
      exact passes_of_store stepped (by simp [Instruction.Jumps, op])
    | input =>
      simp only [op] at stepped
      cases input with
      | none => cases stepped
      | some value => exact passes_of_store stepped (by simp [Instruction.Jumps, op])
    | output =>
      simp only [op] at stepped
      cases stepped
      exact ⟨rfl, .inr ⟨by simp [Instruction.Jumps, op], rfl⟩⟩
    | jumpIfTrue | jumpIfFalse =>
      simp only [op] at stepped
      split at stepped
      · next taken =>
        cases stepped
        exact ⟨rfl, .inl ⟨by simp [Instruction.Jumps, op, taken], rfl⟩⟩
      · next notTaken =>
        cases stepped
        exact ⟨rfl, .inr ⟨by simpa [Instruction.Jumps, op] using notTaken, rfl⟩⟩
    | halt | unknown code =>
      simp only [op] at stepped
      cases stepped

/-- The machine after a number of instructions and what is left of its input, provided that all of
them are carried out. -/
def after : (count : Nat) → Machine → (input : Option Cell) → Option (Machine × Option Cell)
  | 0, m, input => some (m, input)
  | count + 1, m, input =>
    match m.step input with
    | .next next left => after count next left
    | _ => none

private theorem size_of_after (reached : after count m input = some (n, rest)) :
    n.memory.size = m.memory.size := by
  induction count generalizing m input with
  | zero => cases reached; rfl
  | succ count ih =>
    rw [after] at reached
    split at reached
    · next stepped =>
      obtain ⟨ins, -, passes⟩ := passes_of_step stepped
      exact (ih reached).trans passes.size
    · cases reached

/-- A run goes on from where it has come. -/
theorem runFrom_of_after (reached : after count m input = some (n, rest)) (budget : ℕ) :
    m.runFrom (count + budget) input = n.runFrom budget rest := by
  induction count generalizing m input with
  | zero => cases reached; rw [Nat.zero_add]
  | succ count ih =>
    rw [after] at reached
    rw [Nat.succ_add, runFrom]
    split at reached
    · next stepped =>
      rw [stepped]
      exact ih reached
    · cases reached

def unfetched (m : Machine) : Failure :=
  (Cause.addressOutOfBounds.within (.read m.pc m.memory.size)).within (.fetch m.pc)

/-- A program counter outside memory is noticed when the instruction is fetched. -/
theorem step_of_outside (outside : ¬ m.memory.Contains m.pc) (input : Option Cell) :
    m.step input = .failed m m.unfetched := by
  have unread : m.memory.read m.pc =
      .error (Cause.addressOutOfBounds.within (.read m.pc m.memory.size)) := dif_neg outside
  simp only [step, Instruction.decode, unread]
  rfl

/-- An instruction that falls through leads to an address within memory or to its end. -/
theorem Passes.toInt_pc (passes : m.Passes ins next) (straight : ¬ ins.Jumps)
    (short : m.memory.size ≤ 2 ^ 63 - 1)
    (decoded : Instruction.decode m.memory m.pc = .ok ins) :
    next.pc.toInt = m.pc.toInt + ins.size ∧ 1 ≤ next.pc.toInt ∧
      next.pc.toInt ≤ m.memory.size := by
  obtain ⟨k, -, few, -, all⟩ := Instruction.sums_decodeTraced m.memory m.pc
  obtain ⟨size, natural, within⟩ := all ins decoded
  obtain ⟨jumps, -⟩ | ⟨-, pc⟩ := passes.pc
  · exact (straight jumps).elim
  have distance : (Int64.ofNat ins.size).toInt = ins.size :=
    Int64.toInt_ofNat_of_lt (by omega)
  have fits : (AddressSum.mk m.pc (Int64.ofNat ins.size)).Fits m.memory :=
    AddressSum.fits_of_le short (by rw [AddressSum.total, distance]; dsimp only; omega)
      (by rw [AddressSum.total, distance]; exact within)
  have sum : next.pc.toInt = m.pc.toInt + ins.size := by
    rw [pc, ← distance]
    exact fits.unwrapped
  omega

/-- Addresses never wrap. This holds wherever the program counter points at first, in each state
that a machine comes to when it is set going. Every sum that is formed to decode the next
instruction is exact and at most the number of cells, and the instruction ends within memory if it
is decoded. An instruction that is carried out is a jump that is taken, or leads to the instruction
behind it by a sum that is exact and lies in memory or at its end. If the program counter is outside
memory, no sum is formed, and the machine stops where it stands because there is no instruction to
fetch. -/
theorem addressing_exact (short : m.memory.size ≤ 2 ^ 63 - 1)
    (reached : after count m.reset input = some (n, rest)) :
    (m.halted = false → ∀ budget, m.execute (count + budget) input = n.runFrom budget rest) ∧
    (Instruction.decodeTraced n.memory n.pc).result = Instruction.decode n.memory n.pc ∧
    (∀ s ∈ (Instruction.decodeTraced n.memory n.pc).sums,
      s.address = n.pc ∧ s.cell.toInt = s.total ∧ s.total ≤ m.memory.size) ∧
    (∀ ins, Instruction.decode n.memory n.pc = .ok ins →
      (Instruction.decodeTraced n.memory n.pc).sums =
          (List.range' 1 (ins.size - 1)).map (fun d => ⟨n.pc, Int64.ofNat d⟩) ∧
        n.pc.toInt + ins.size ≤ m.memory.size) ∧
    (∀ next left, n.step rest = .next next left →
      ∃ ins, Instruction.decode n.memory n.pc = .ok ins ∧
        (ins.Jumps ∧ next.pc = ins.dest ∨
          ¬ ins.Jumps ∧ next.pc.toInt = n.pc.toInt + ins.size ∧ 1 ≤ next.pc.toInt ∧
            next.pc.toInt ≤ m.memory.size)) ∧
    (¬ (0 ≤ n.pc.toInt ∧ n.pc.toInt < m.memory.size) →
      (Instruction.decodeTraced n.memory n.pc).sums = [] ∧
        n.runFrom 1 rest = some ⟨n, .error n.unfetched⟩) := by
  have size : n.memory.size = m.memory.size := (size_of_after reached :)
  rw [← size] at short ⊢
  refine ⟨?_, Instruction.result_decodeTraced n.memory n.pc, ?_, ?_, ?_, ?_⟩
  · intro alive budget
    rw [execute, if_neg (by simp [alive])]
    exact runFrom_of_after reached budget
  · intro s member
    obtain ⟨address, fits⟩ := Instruction.fits_of_mem_sums short member
    exact ⟨address, fits.unwrapped, fits.le⟩
  · intro ins decoded
    obtain ⟨k, sums, -, -, all⟩ := Instruction.sums_decodeTraced n.memory n.pc
    obtain ⟨words, -, within⟩ := all ins decoded
    rw [words, Nat.add_sub_cancel]
    exact ⟨sums, words ▸ within⟩
  · intro next left stepped
    obtain ⟨ins, decoded, passes⟩ := passes_of_step stepped
    refine ⟨ins, decoded, ?_⟩
    by_cases jumps : ins.Jumps
    · obtain ⟨-, pc⟩ | ⟨straight, -⟩ := passes.pc
      · exact .inl ⟨jumps, pc⟩
      · exact (straight jumps).elim
    · exact .inr ⟨jumps, passes.toInt_pc jumps short decoded⟩
  · intro outside
    obtain ⟨k, sums, -, within, -⟩ := Instruction.sums_decodeTraced n.memory n.pc
    constructor
    · obtain rfl : k = 0 := by
        by_contra positive
        have inside := within (by omega)
        omega
      exact sums
    · have failed := step_of_outside (mt Memory.contains_iff.mp outside) rest
      simp only [runFrom, failed]

/-- A program that jumps to the greatest address. -/
def leaper : Memory :=
  .ofList [1106, 0, 9223372036854775807]

/-- A jump to the greatest address fails at the fetch. In the last cell of a memory, an instruction
that adds two values looks for its first operand one past the end. -/
theorem addressing_exact_leaper :
    (∃ n, after 1 (load leaper).reset none = some (n, none) ∧ n.pc = 9223372036854775807 ∧
      (Instruction.decodeTraced n.memory n.pc).sums = [] ∧
        (load leaper).execute 2 none = some ⟨n, .error n.unfetched⟩) ∧
    ∃ s, (Instruction.decodeTraced (.ofList [99, 1]) 1).sums = [s] ∧ s.cell.toInt = s.total ∧
      s.total = 2 := by
  constructor
  · obtain ⟨n, reached, pc⟩ : ∃ n, after 1 (load leaper).reset none = some (n, none) ∧
        n.pc = 9223372036854775807 :=
      ⟨_, rfl, rfl⟩
    obtain ⟨goesOn, -, -, -, -, outside⟩ := addressing_exact (by decide) reached
    obtain ⟨sums, stopped⟩ := outside (by rw [pc]; decide)
    exact ⟨n, reached, pc, sums, (goesOn rfl 1).trans stopped⟩
  · have reached : after 0 (reset { pc := 1, memory := .ofList [99, 1] }) none =
        some ({ pc := 1, memory := .ofList [99, 1] }, none) := rfl
    obtain ⟨-, -, fits, -⟩ := addressing_exact (by decide) reached
    exact ⟨_, rfl, (fits _ List.mem_cons_self).2.1, rfl⟩

end Machine

end CellMachine
