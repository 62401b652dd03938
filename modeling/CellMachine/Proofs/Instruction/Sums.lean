import Mathlib.Algebra.Group.Nat.Defs
import CellMachine.Proofs.Instruction.Format

/-! # Sums of addresses

Decoding adds distances to the program counter before it knows whether the sums are addresses, and
the program counter may be any cell. `decodeTraced` is decoding with a record of every sum that it
forms, and without the record it is decoding itself.

No sum wraps. The word of an operand is only looked up when the word before it is in memory, so the
sum is at most the number of cells.
-/

namespace CellMachine

/-- An address and a distance that is added to it. -/
structure AddressSum where
  address : Cell
  distance : Cell
  deriving DecidableEq, Repr

namespace AddressSum

/-- The sum as it is formed, which may wrap. -/
def cell (s : AddressSum) : Cell :=
  s.address + s.distance

/-- The sum over the integers. -/
def total (s : AddressSum) : Int :=
  s.address.toInt + s.distance.toInt

/-- The sum has not wrapped and goes at most to the end of a memory. -/
structure Fits (m : Memory) (s : AddressSum) : Prop where
  unwrapped : s.cell.toInt = s.total
  le : s.total ≤ m.size

theorem fits_of_le {m : Memory} {s : AddressSum} (short : m.size ≤ 2 ^ 63 - 1)
    (natural : 0 ≤ s.total) (le : s.total ≤ m.size) : s.Fits m where
  unwrapped := by
    unfold cell total at *
    rw [Int64.toInt_add]
    exact Int.bmod_eq_of_le (by omega) (by omega)
  le := le

end AddressSum

/-- A result with a record of the sums that were formed on the way to it, the first one first. -/
structure Traced (α : Type) where
  result : α
  sums : List AddressSum

namespace Traced

variable {α β : Type}

instance : Monad Traced where
  pure value := ⟨value, []⟩
  bind x f := ⟨(f x.result).result, x.sums ++ (f x.result).sums⟩

@[simp]
theorem result_pure (value : α) : (pure value : Traced α).result = value :=
  rfl

@[simp]
theorem sums_pure (value : α) : (pure value : Traced α).sums = [] :=
  rfl

@[simp]
theorem result_bind (x : Traced α) (f : α → Traced β) :
    (x >>= f).result = (f x.result).result :=
  rfl

@[simp]
theorem sums_bind (x : Traced α) (f : α → Traced β) :
    (x >>= f).sums = x.sums ++ (f x.result).sums :=
  rfl

def add (address distance : Cell) : Traced Cell :=
  ⟨address + distance, [⟨address, distance⟩]⟩

end Traced

/-! ## Decoding with a record -/

/-- The content of an operand, with the sum that leads to its word. -/
def Parameter.resolveTraced (m : Memory) (pc word : Cell) :
    Parameter → Traced (Except Failure Cell)
  | .value operand _ => do
    match m.read (← .add pc operand.offset) with
    | .error f => return .error f
    | .ok content =>
      match operand.mode word with
      | .position => return m.read content
      | .immediate => return .ok content
      | .unknown _ => return .error (Cause.invalidMode.within (.operand operand word pc))
  | .address number _ => return m.read (← .add pc (Int64.ofNat number))

namespace Instruction

def fillTraced (m : Memory) (pc word : Cell) :
    List Parameter → Instruction → Traced (Except Undecoded Instruction)
  | [], ins => return .ok ins
  | p :: ps, ins => do
    match ← p.resolveTraced m pc word with
    | .error f => return .error (ins.unresolved pc f)
    | .ok v => fillTraced m pc word ps (ins.set v p.field)

/-- The instruction at an address of a memory, with the sums that are formed to decode it. -/
def decodeTraced (m : Memory) (pc : Cell) : Traced (Except Undecoded Instruction) :=
  match m.read pc with
  | .error f => return .error ⟨{}, f.within (.fetch pc)⟩
  | .ok word =>
    let op := Opcode.ofCode (word % 100)
    if word < 0 ∨ op.isKnown = false then
      return .error ⟨{ op }, Cause.invalidOpcode.within (.word word pc)⟩
    else fillTraced m pc word op.layout { op }

end Instruction

namespace Parameter

variable (m : Memory) (pc word : Cell) (p : Parameter)

@[simp]
theorem result_resolveTraced : (p.resolveTraced m pc word).result = p.resolve m pc word := by
  cases p with
  | value operand field =>
    simp only [resolveTraced, resolve, Operand.resolve, Traced.result_bind, Traced.add]
    cases m.read (pc + operand.offset) with
    | error f => rfl
    | ok content => cases operand.mode word <;> rfl
  | address number field => rfl

@[simp]
theorem sums_resolveTraced :
    (p.resolveTraced m pc word).sums = [⟨pc, Int64.ofNat p.number⟩] := by
  cases p with
  | value operand field =>
    simp only [resolveTraced, number, ← operand.offset_eq, Traced.sums_bind, Traced.add]
    cases m.read (pc + operand.offset) with
    | error f => rfl
    | ok content => cases operand.mode word <;> rfl
  | address number field => rfl

end Parameter

namespace Instruction

variable {m : Memory} {pc word : Cell} {ps : List Parameter} {ins : Instruction}

private theorem result_fillTraced :
    (fillTraced m pc word ps ins).result = fill m pc word ps ins := by
  induction ps generalizing ins with
  | nil => rfl
  | cons p ps ih =>
    simp only [fillTraced, fill, Traced.result_bind, Parameter.result_resolveTraced]
    cases p.resolve m pc word with
    | error f => rfl
    | ok v => exact ih

private theorem decodeTraced_eq (fetched : m.read pc = .ok word) :
    decodeTraced m pc =
      if m.wordAt pc < 0 ∨ (m.opcodeAt pc).isKnown = false then
        return .error ⟨{ op := m.opcodeAt pc }, Cause.invalidOpcode.within (.word (m.wordAt pc) pc)⟩
      else fillTraced m pc (m.wordAt pc) (m.opcodeAt pc).layout { op := m.opcodeAt pc } := by
  simp only [decodeTraced, fetched, Memory.opcodeAt, Memory.wordAt_of_read fetched]

/-- Without its record, decoding with a record is decoding. -/
theorem result_decodeTraced (m : Memory) (pc : Cell) :
    (decodeTraced m pc).result = decode m pc := by
  cases fetched : m.read pc with
  | error f => simp only [decodeTraced, decode, fetched, Traced.result_pure]
  | ok word =>
    rw [decode_eq fetched, decodeTraced_eq fetched]
    simp only [apply_ite Traced.result, Traced.result_pure, result_fillTraced]

/-! ## How far the sums go -/

end Instruction

/-- The word of an operand that is resolved is in memory. -/
theorem Parameter.lt_size_of_resolve {m : Memory} {pc word v : Cell} {p : Parameter}
    (small : p.number ≤ 3) (resolved : p.resolve m pc word = .ok v) :
    pc.toInt + p.number < m.size := by
  have distance : (Int64.ofNat p.number).toInt = p.number :=
    Int64.toInt_ofNat_of_lt (by omega)
  obtain ⟨_, -, present⟩ | ⟨f, unread, -⟩ := m.read_add_cases pc distance
  · exact (Memory.lt_size_of_isSome (by rw [present]; rfl)).2
  · cases p with
    | value operand field =>
      rw [number, ← operand.offset_eq] at unread
      rw [resolve, Operand.resolve, unread] at resolved
      cases resolved
    | address number field => cases unread.symm.trans resolved

namespace Instruction

variable {m : Memory} {pc : Cell} {n : ℕ}

/-- The sums for operands with consecutive numbers are consecutive addresses, each of which is in
memory but perhaps the last, which may be one past its end. -/
theorem sums_fillTraced (word : Cell) {ps : List Parameter} (ins : Instruction)
    (numbered : ps.map Parameter.number = List.range' n ps.length)
    (few : n + ps.length ≤ 4) (room : pc.toInt + n ≤ m.size) :
    ∃ k, (fillTraced m pc word ps ins).sums =
        (List.range' n k).map (fun d => ⟨pc, Int64.ofNat d⟩) ∧
      n + k ≤ 4 ∧ pc.toInt + n + k ≤ m.size + 1 ∧
      ∀ full, fill m pc word ps ins = .ok full →
        k = ps.length ∧ pc.toInt + n + k ≤ m.size := by
  induction ps generalizing n ins with
  | nil => exact ⟨0, rfl, few, by omega, fun _ _ => ⟨rfl, by simpa using room⟩⟩
  | cons p ps ih =>
    rw [List.map_cons, List.length_cons, List.range'_succ, List.cons.injEq] at numbered
    obtain ⟨rfl, numbered⟩ := numbered
    rw [List.length_cons] at few
    rw [fillTraced, fill, Traced.sums_bind, Parameter.sums_resolveTraced,
      Parameter.result_resolveTraced]
    cases resolved : p.resolve m pc word with
    | error f => exact ⟨1, rfl, by omega, by omega, by rintro _ ⟨⟩⟩
    | ok v =>
      have inside := Parameter.lt_size_of_resolve (by omega) resolved
      obtain ⟨k, sums, short, within, all⟩ :=
        ih (ins.set v p.field) numbered (by omega) (by omega)
      refine ⟨k + 1, ?_, by omega, by omega, fun full filled => ?_⟩
      · rw [List.range'_succ, List.map_cons, ← sums]
        rfl
      · obtain ⟨rfl, fits⟩ := all full filled
        exact ⟨rfl, by omega⟩

/-- Decoding looks up the words behind the instruction word one by one, the last one at most one
past the end of memory. If it succeeds, these are all words of the instruction, which ends within
memory. -/
theorem sums_decodeTraced (m : Memory) (pc : Cell) :
    ∃ k, (decodeTraced m pc).sums = (List.range' 1 k).map (fun d => ⟨pc, Int64.ofNat d⟩) ∧
      k ≤ 3 ∧ (0 < k → 0 ≤ pc.toInt ∧ pc.toInt + k ≤ m.size) ∧
      ∀ ins, decode m pc = .ok ins → ins.size = k + 1 ∧ 0 ≤ pc.toInt ∧
        pc.toInt + ins.size ≤ m.size := by
  obtain ⟨word, fetched, present⟩ | ⟨f, unread, -⟩ := m.read_cases pc
  · obtain ⟨natural, inside⟩ := Memory.lt_size_of_isSome (by rw [present]; rfl)
    have decoding := decode_eq fetched
    rw [decodeTraced_eq fetched]
    split
    · next refused =>
      rw [if_pos refused] at decoding
      refine ⟨0, rfl, by omega, by omega, fun ins decoded => ?_⟩
      cases decoding.symm.trans decoded
    · next accepted =>
      rw [if_neg accepted] at decoding
      have layout := Opcode.size_eq_length_layout { op := m.opcodeAt pc }
      have few : (m.opcodeAt pc).layout.length ≤ 3 := by
        cases m.opcodeAt pc <;> simp [Opcode.layout]
      have numbered : (m.opcodeAt pc).layout.map Parameter.number =
          List.range' 1 (m.opcodeAt pc).layout.length := by
        rw [Opcode.numbers_layout { op := m.opcodeAt pc }, layout, Nat.add_sub_cancel]
      have room : pc.toInt + (1 : ℕ) ≤ m.size := by omega
      obtain ⟨k, sums, short, within, all⟩ :=
        sums_fillTraced (m.wordAt pc) { op := m.opcodeAt pc } numbered (by omega) room
      refine ⟨k, sums, by omega, fun _ => by omega, fun ins decoded => ?_⟩
      obtain ⟨rfl, fits⟩ := all ins (decoding.symm.trans decoded)
      have size : ins.size = (m.opcodeAt pc).layout.length + 1 := by
        rw [Opcode.size_eq_length_layout, op_of_decode decoded]
      exact ⟨size, natural, by omega⟩
  · refine ⟨0, ?_, by omega, by omega, ?_⟩
    · simp only [decodeTraced, unread, Traced.sums_pure]
      rfl
    · simp only [decode, unread]
      rintro _ ⟨⟩

/-- No sum that is formed to decode an instruction wraps. -/
theorem fits_of_mem_sums {s : AddressSum} (short : m.size ≤ 2 ^ 63 - 1)
    (member : s ∈ (decodeTraced m pc).sums) : s.address = pc ∧ s.Fits m := by
  obtain ⟨k, sums, few, within, -⟩ := sums_decodeTraced m pc
  rw [sums, List.mem_map] at member
  obtain ⟨d, listed, rfl⟩ := member
  rw [List.mem_range'_1] at listed
  have total : (AddressSum.mk pc (Int64.ofNat d)).total = pc.toInt + d := by
    rw [AddressSum.total, Int64.toInt_ofNat_of_lt (by omega)]
  obtain ⟨natural, inside⟩ := within (by omega)
  exact ⟨rfl, AddressSum.fits_of_le short (by omega) (by omega)⟩

end Instruction

end CellMachine
