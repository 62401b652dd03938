import Mathlib.Data.List.Find
import CellMachine.Proofs.Memory.Address

/-! # The format of instructions

Each operation has a layout: the operands that follow its word, and the field that each of them
fills. Decoding follows the layout from left to right and makes a fixed list of checks on the way.
It succeeds exactly when all of them pass, and the fields then hold the resolved operands;
otherwise the first check that fails gives the cause, and only the operands before it are filled in.
The format is stated over the integers, so that it does not depend on how cells wrap.
-/

namespace CellMachine

/-! ## Instruction words -/

namespace Memory

/-- The instruction word at an address, or zero where there is none. -/
def wordAt (m : Memory) (pc : Cell) : Cell :=
  (m.cell? pc.toInt).getD 0

/-- The operation of the instruction word at an address. -/
def opcodeAt (m : Memory) (pc : Cell) : Opcode :=
  .ofCode (m.wordAt pc % 100)

theorem wordAt_of_read {m : Memory} {pc word : Cell} (fetched : m.read pc = .ok word) :
    m.wordAt pc = word := by
  rw [wordAt, cell?_of_read fetched, Option.getD_some]

theorem wordAt_write {m written : Memory} {pc value : Cell}
    (stored : m.write pc value = .ok written) : written.wordAt pc = value := by
  rw [wordAt, cell?_write stored, if_pos rfl, Option.getD_some]

end Memory

/-- What is kept of an instruction that could not be decoded, and the cause. -/
def Undecoded.gist (u : Undecoded) : Instruction × Cause :=
  (u.resolved, u.failure.cause)

/-! ## Layouts and checks -/

namespace Operand

def number : Operand → Nat
  | first => 1
  | second => 2

theorem number_pos (operand : Operand) : 1 ≤ operand.number := by
  cases operand <;> decide

/-- The decimal digit of an instruction word that holds an operand's mode. -/
def digit (word : Cell) : Operand → Int
  | first => word.toInt / 100 % 10
  | second => word.toInt / 1000 % 10

/-- The value at the address that an operand's word gives. -/
def target? (m : Memory) (pc : Cell) (operand : Operand) : Option Cell :=
  (m.cell? (pc.toInt + operand.number)).bind fun address => m.cell? address.toInt

end Operand

inductive Field where
  | a
  | b
  | dest
  deriving DecidableEq, Repr

namespace Instruction

def get (ins : Instruction) : Field → Cell
  | .a => ins.a
  | .b => ins.b
  | .dest => ins.dest

def set (ins : Instruction) (value : Cell) : Field → Instruction
  | .a => { ins with a := value }
  | .b => { ins with b := value }
  | .dest => { ins with dest := value }

@[simp]
theorem op_set (ins : Instruction) (value : Cell) (field : Field) :
    (ins.set value field).op = ins.op := by
  cases field <;> rfl

theorem get_set (ins : Instruction) (value : Cell) (field other : Field) :
    (ins.set value field).get other = if field = other then value else ins.get other := by
  cases field <;> cases other <;> rfl

end Instruction

/-- One check that decoding makes. -/
inductive Check where
  /-- The instruction word is in memory. -/
  | fetch
  /-- The instruction word is not negative and has the code of an operation. -/
  | opcode
  /-- The word of an operand is in memory. -/
  | word (number : Nat)
  /-- The mode of an operand is known. -/
  | mode (operand : Operand)
  /-- The value that an operand refers to is in memory. -/
  | cell (operand : Operand)
  deriving DecidableEq, Repr

namespace Check

def cause : Check → Cause
  | fetch | word _ | cell _ => .addressOutOfBounds
  | opcode => .invalidOpcode
  | mode _ => .invalidMode

/-- The check does not fail for the instruction at an address. -/
def Passes (m : Memory) (pc : Cell) : Check → Prop
  | fetch => (m.cell? pc.toInt).isSome
  | opcode => 0 ≤ (m.wordAt pc).toInt ∧ (m.wordAt pc).toInt % 100 ∈ [1, 2, 3, 4, 5, 6, 7, 8, 99]
  | word number => (m.cell? (pc.toInt + number)).isSome
  | mode operand => operand.digit (m.wordAt pc) = 0 ∨ operand.digit (m.wordAt pc) = 1
  | cell operand => operand.digit (m.wordAt pc) = 0 → (operand.target? m pc).isSome

instance (m : Memory) (pc : Cell) : (check : Check) → Decidable (check.Passes m pc)
  | fetch | word _ => inferInstanceAs (Decidable (_ = _))
  | opcode => inferInstanceAs (Decidable (_ ∧ _))
  | mode _ => inferInstanceAs (Decidable (_ ∨ _))
  | cell _ => inferInstanceAs (Decidable (_ → _))

def failing? (m : Memory) (pc : Cell) (checks : List Check) : Option Check :=
  checks.find? fun check => ¬ check.Passes m pc

variable {m : Memory} {pc : Cell} {checks : List Check}

theorem failing?_congr {other : Memory}
    (same : ∀ c ∈ checks, c.Passes other pc ↔ c.Passes m pc) :
    failing? other pc checks = failing? m pc checks := by
  refine List.find?_congr fun c member => ?_
  simp only [same c member]

theorem failing?_append (m : Memory) (pc : Cell) (earlier later : List Check) :
    failing? m pc (earlier ++ later) = (failing? m pc earlier).or (failing? m pc later) :=
  List.find?_append

theorem failing?_eq_none : failing? m pc checks = none ↔ ∀ c ∈ checks, c.Passes m pc := by
  simp [failing?]

theorem mem_of_failing? {c : Check} (first : failing? m pc checks = some c) : c ∈ checks :=
  List.mem_of_find?_eq_some first

theorem not_passes_of_failing? {c : Check} (first : failing? m pc checks = some c) :
    ¬ c.Passes m pc := by
  simpa using List.find?_some first

end Check

/-- An operand as its operation takes it, with the field that it fills. -/
inductive Parameter where
  /-- A value, in position or immediate mode. -/
  | value (operand : Operand) (field : Field)
  /-- An address, which is the word itself. -/
  | address (number : Nat) (field : Field)
  deriving DecidableEq, Repr

namespace Parameter

def number : Parameter → Nat
  | value operand _ => operand.number
  | address number _ => number

def field : Parameter → Field
  | value _ field | address _ field => field

def checks : Parameter → List Check
  | value operand _ => [.word operand.number, .mode operand, .cell operand]
  | address number _ => [.word number]

/-- The content of the operand of the instruction at an address. -/
def content? (m : Memory) (pc : Cell) : Parameter → Option Cell
  | value operand _ =>
    if operand.digit (m.wordAt pc) = 0 then operand.target? m pc
    else if operand.digit (m.wordAt pc) = 1 then m.cell? (pc.toInt + operand.number)
    else none
  | address number _ => m.cell? (pc.toInt + number)

end Parameter

namespace Opcode

/-- The operands of each operation, in the order of their words. -/
def layout : Opcode → List Parameter
  | add | mul | lessThan | equals => [.value .first .a, .value .second .b, .address 3 .dest]
  | jumpIfTrue | jumpIfFalse => [.value .first .a, .value .second .dest]
  | input => [.address 1 .dest]
  | output => [.value .first .a]
  | halt | unknown _ => []

def checks (op : Opcode) : List Check :=
  .fetch :: .opcode :: op.layout.flatMap Parameter.checks

theorem mem_checks {op : Opcode} {c : Check} :
    c ∈ op.checks ↔ c = .fetch ∨ c = .opcode ∨ ∃ p ∈ op.layout, c ∈ p.checks := by
  simp [checks]

private theorem layout_of_unknown {op : Opcode} (unknown : op.isKnown = false) :
    op.layout = [] := by
  cases op with
  | unknown code => rfl
  | _ => cases unknown

/-- An instruction is as long as its layout says, and the operands are numbered one by one. -/
theorem numbers_layout (ins : Instruction) :
    ins.op.layout.map Parameter.number = List.range' 1 (ins.size - 1) := by
  unfold Instruction.size
  cases ins.op <;> rfl

/-- An instruction is its word and the words of its operands. -/
theorem size_eq_length_layout (ins : Instruction) : ins.size = ins.op.layout.length + 1 := by
  unfold Instruction.size
  cases ins.op <;> rfl

/-- No field is filled twice. -/
theorem nodup_layout (op : Opcode) : (op.layout.map Parameter.field).Nodup := by
  cases op <;> simp [layout, Parameter.field]

theorem number_of_mem_layout {op : Opcode} {p : Parameter} (member : p ∈ op.layout) :
    1 ≤ p.number ∧ p.number ≤ 3 := by
  have listed : p.number ∈ List.range' 1 (({ op } : Instruction).size - 1) := by
    rw [← numbers_layout { op }]
    exact List.mem_map_of_mem member
  have short : ({ op } : Instruction).size ≤ 4 := by
    cases op <;> simp [Instruction.size, shape]
  rw [List.mem_range'_1] at listed
  omega

private theorem code_ofCode (code : Cell) : (ofCode code).code = code := by
  unfold ofCode
  split_ifs <;> subst_vars <;> rfl

private theorem ofCode_eq_iff {op : Opcode} (known : op.isKnown) (code : Cell) :
    ofCode code = op ↔ code = op.code := by
  constructor
  · rintro rfl
    exact (code_ofCode code).symm
  · rintro rfl
    cases op with
    | unknown code => cases known
    | _ => rfl

/-- The codes of the operations. -/
theorem isKnown_ofCode (code : Cell) :
    (ofCode code).isKnown ↔ code.toInt ∈ [1, 2, 3, 4, 5, 6, 7, 8, 99] := by
  constructor
  · intro known
    rw [← code_ofCode code]
    cases op : ofCode code with
    | unknown other => rw [op] at known; cases known
    | _ => decide
  · intro member
    have mapped : code.toInt ∈ ([1, 2, 3, 4, 5, 6, 7, 8, 99] : List Cell).map Int64.toInt := member
    have known : ([1, 2, 3, 4, 5, 6, 7, 8, 99] : List Cell).all fun c => (ofCode c).isKnown := by
      decide
    obtain ⟨own, listed, same⟩ := List.mem_map.mp mapped
    obtain rfl := Int64.toInt_inj.mp same
    exact List.all_eq_true.mp known own listed

end Opcode

namespace Operand

variable {word : Cell}

theorem toInt_offset (operand : Operand) : operand.offset.toInt = operand.number := by
  cases operand <;> rfl

theorem offset_eq (operand : Operand) : operand.offset = Int64.ofNat operand.number := by
  cases operand <;> rfl

/-- The mode of an operand is read off its digit. -/
theorem toInt_digit (natural : 0 ≤ word.toInt) (operand : Operand) :
    (word / operand.weight % 10).toInt = operand.digit word := by
  have aside : operand.weight ≠ -1 := by cases operand <;> decide
  have positive : 0 ≤ operand.weight.toInt := by cases operand <;> decide
  rw [Int64.toInt_mod, Int64.toInt_div_of_ne_right _ _ aside,
    Int.tdiv_eq_ediv_of_nonneg natural,
    Int.tmod_eq_emod_of_nonneg (Int.ediv_nonneg natural positive)]
  cases operand <;> rfl

/-- The digit zero stands for position mode and the digit one for immediate mode. -/
theorem mode_cases (natural : 0 ≤ word.toInt) (operand : Operand) :
    (operand.digit word = 0 ∧ operand.mode word = .position) ∨
      (operand.digit word = 1 ∧ operand.mode word = .immediate) ∨
      (operand.digit word ≠ 0 ∧ operand.digit word ≠ 1) ∧
        ∃ digit, operand.mode word = .unknown digit := by
  have same (n : Cell) : word / operand.weight % 10 = n ↔ operand.digit word = n.toInt := by
    rw [← Int64.toInt_inj, toInt_digit natural]
  simp only [mode, AddressingMode.ofDigit, same]
  split
  · next zero => exact .inl ⟨zero, rfl⟩
  · next nonzero =>
    split
    · next one => exact .inr (.inl ⟨one, rfl⟩)
    · next other => exact .inr (.inr ⟨⟨nonzero, other⟩, _, rfl⟩)

end Operand

/-! ## Resolving one operand -/

namespace Parameter

def resolve (m : Memory) (pc word : Cell) : Parameter → Except Failure Cell
  | value operand _ => operand.resolve m pc word
  | address number _ => m.read (pc + Int64.ofNat number)

variable {m : Memory} {pc : Cell}

private theorem address_cases {number : Nat} (small : number ≤ 3) (field : Field) :
    (Check.failing? m pc (address number field).checks = none ∧
      ∃ v, m.read (pc + Int64.ofNat number) = .ok v ∧ m.cell? (pc.toInt + number) = some v) ∨
      ∃ c f, Check.failing? m pc (address number field).checks = some c ∧
        m.read (pc + Int64.ofNat number) = .error f ∧ f.cause = c.cause := by
  have distance : (Int64.ofNat number).toInt = number :=
    Int64.toInt_ofNat_of_lt (Nat.lt_of_le_of_lt small (by decide))
  obtain ⟨v, found, present⟩ | ⟨f, unread, cause, missing⟩ := m.read_add_cases pc distance
  · refine .inl ⟨?_, v, found, present⟩
    simp [Check.failing?, checks, Check.Passes, present]
  · refine .inr ⟨.word number, f, ?_, unread, cause⟩
    simp [Check.failing?, checks, Check.Passes, missing]

theorem value_cases (natural : 0 ≤ (m.wordAt pc).toInt) (operand : Operand) (field : Field) :
    (Check.failing? m pc (value operand field).checks = none ∧
      ∃ v, operand.resolve m pc (m.wordAt pc) = .ok v ∧
        (value operand field).content? m pc = some v) ∨
      ∃ c f, Check.failing? m pc (value operand field).checks = some c ∧
        operand.resolve m pc (m.wordAt pc) = .error f ∧ f.cause = c.cause := by
  unfold Operand.resolve content?
  obtain ⟨x, found, present⟩ | ⟨f, unread, cause, missing⟩ :=
    m.read_add_cases pc operand.toInt_offset
  · simp only [found]
    obtain ⟨zero, mode⟩ | ⟨one, mode⟩ | ⟨⟨nonzero, other⟩, digit, mode⟩ :=
      operand.mode_cases natural
    · simp only [mode, zero, ↓reduceIte]
      have target : operand.target? m pc = m.cell? x.toInt := by
        rw [Operand.target?, present, Option.bind_some]
      obtain ⟨v, found, hit⟩ | ⟨f, unread, cause, missing⟩ := m.read_cases x
      · refine .inl ⟨?_, v, found, target.trans hit⟩
        simp [Check.failing?, checks, Check.Passes, present, target, hit, zero]
      · refine .inr ⟨.cell operand, f, ?_, unread, cause⟩
        simp [Check.failing?, checks, Check.Passes, present, target, missing, zero]
    · simp only [mode, one, Int.one_ne_zero, ↓reduceIte]
      refine .inl ⟨?_, x, rfl, present⟩
      simp [Check.failing?, checks, Check.Passes, present, one]
    · simp only [mode]
      refine .inr ⟨.mode operand, _, ?_, rfl, rfl⟩
      simp [Check.failing?, checks, Check.Passes, present, nonzero, other]
  · simp only [unread]
    refine .inr ⟨.word operand.number, f, ?_, rfl, cause⟩
    simp [Check.failing?, checks, Check.Passes, missing]

/-- An operand is resolved to its content, up to the first check on it that fails. -/
theorem resolve_cases (natural : 0 ≤ (m.wordAt pc).toInt) {p : Parameter} (small : p.number ≤ 3) :
    (Check.failing? m pc p.checks = none ∧
      ∃ v, p.resolve m pc (m.wordAt pc) = .ok v ∧ p.content? m pc = some v) ∨
      ∃ c f, Check.failing? m pc p.checks = some c ∧
        p.resolve m pc (m.wordAt pc) = .error f ∧ f.cause = c.cause := by
  cases p with
  | value operand field => exact value_cases natural operand field
  | address number field => exact address_cases small field

end Parameter

/-! ## Resolving the operands one by one -/

namespace Instruction

/-- The instruction with the given operands resolved into their fields, one after the other. -/
def fill (m : Memory) (pc word : Cell) : List Parameter → Instruction → Except Undecoded Instruction
  | [], ins => .ok ins
  | p :: ps, ins =>
    match p.resolve m pc word with
    | .error f => .error (ins.unresolved pc f)
    | .ok v => fill m pc word ps (ins.set v p.field)

/-- Decoding an instruction fills in the operands of its layout. -/
theorem decode_eq {m : Memory} {pc word : Cell} (fetched : m.read pc = .ok word) :
    decode m pc =
      if m.wordAt pc < 0 ∨ (m.opcodeAt pc).isKnown = false then
        .error ⟨{ op := m.opcodeAt pc }, Cause.invalidOpcode.within (.word (m.wordAt pc) pc)⟩
      else fill m pc (m.wordAt pc) (m.opcodeAt pc).layout { op := m.opcodeAt pc } := by
  simp only [decode, fetched, Memory.opcodeAt, Memory.wordAt_of_read fetched]
  congr 1
  generalize Opcode.ofCode (word % 100) = op
  cases op <;> rfl

variable {m : Memory} {pc : Cell}

/-- The instruction at an address, as far as the given operands go: the operation is that of its
word, the fields of these operands are filled, and all others are zero. -/
structure Filled (m : Memory) (pc : Cell) (ps : List Parameter) (ins : Instruction) : Prop where
  op : ins.op = m.opcodeAt pc
  resolved : ∀ p ∈ ps, p.content? m pc = some (ins.get p.field)
  rest : ∀ field, field ∉ ps.map Parameter.field → ins.get field = 0

/-- One more operand is filled in. -/
theorem Filled.set {ps : List Parameter} {ins : Instruction} (filled : Filled m pc ps ins)
    {p : Parameter} (fresh : p.field ∉ ps.map Parameter.field) {v : Cell}
    (content : p.content? m pc = some v) : Filled m pc (ps ++ [p]) (ins.set v p.field) where
  op := by rw [op_set, filled.op]
  resolved q member := by
    rw [get_set]
    obtain before | same := List.mem_append.mp member
    · have apart : p.field ≠ q.field := fun same =>
        fresh (same ▸ List.mem_map_of_mem before)
      rw [if_neg apart, filled.resolved q before]
    · rw [List.mem_singleton.mp same, if_pos rfl, content]
  rest field untouched := by
    rw [List.map_append, List.mem_append, not_or] at untouched
    have apart : p.field ≠ field := fun same => untouched.2 (by simp [same])
    rw [get_set, if_neg apart, filled.rest field untouched.1]

/-- The operands are filled in up to the first check that fails. -/
theorem fill_cases (natural : 0 ≤ (m.wordAt pc).toInt) {ps : List Parameter}
    (small : ∀ p ∈ ps, p.number ≤ 3) {done : List Parameter} {ins : Instruction}
    (filled : Filled m pc done ins) (distinct : ((done ++ ps).map Parameter.field).Nodup) :
    (Check.failing? m pc (ps.flatMap Parameter.checks) = none ∧
      ∃ full, fill m pc (m.wordAt pc) ps ins = .ok full ∧ Filled m pc (done ++ ps) full) ∨
      ∃ c u, Check.failing? m pc (ps.flatMap Parameter.checks) = some c ∧
        fill m pc (m.wordAt pc) ps ins = .error u ∧ u.failure.cause = c.cause ∧
        Filled m pc (done ++ ps.takeWhile fun p => c ∉ p.checks) u.resolved := by
  -- The operands still to come become fewer, and those that are filled in grow at their end.
  induction ps generalizing done ins with
  | nil => exact .inl ⟨rfl, ins, rfl, by simpa using filled⟩
  | cons p ps ih =>
    simp only [fill, List.flatMap_cons, Check.failing?_append]
    obtain ⟨passed, v, resolved, content⟩ | ⟨c, f, failed, unresolved, cause⟩ :=
      Parameter.resolve_cases natural (small p List.mem_cons_self)
    · have fresh : p.field ∉ done.map Parameter.field := by
        rw [List.map_append, List.nodup_append] at distinct
        exact fun member => distinct.2.2 _ member _ List.mem_cons_self rfl
      simp only [resolved, passed, Option.none_or]
      obtain ⟨none, full, ok, all⟩ | ⟨c, u, first, error, cause, before⟩ :=
        ih (fun q member => small q (List.mem_cons_of_mem p member))
          (filled.set fresh content) (by simpa using distinct)
      · exact .inl ⟨none, full, ok, by simpa using all⟩
      · refine .inr ⟨c, u, first, error, cause, ?_⟩
        -- The check that fails is not one of the first operand, since those have passed.
        have apart : c ∉ p.checks := fun member =>
          Check.not_passes_of_failing? first (Check.failing?_eq_none.mp passed c member)
        simpa [List.takeWhile_cons, apart] using before
    · simp only [unresolved, failed, Option.some_or]
      have nothing : (p :: ps).takeWhile (fun p => c ∉ p.checks) = [] := by
        simp [Check.mem_of_failing? failed]
      refine .inr ⟨c, _, rfl, rfl, (unresolved_cause ins pc f).trans cause, ?_⟩
      rw [nothing, List.append_nil]
      exact filled

/-- No operand is filled in yet. -/
theorem filled_nil (m : Memory) (pc : Cell) : Filled m pc [] { op := m.opcodeAt pc } :=
  ⟨rfl, nofun, fun field _ => by cases field <;> rfl⟩

/-- A word is refused exactly if the check of its operation fails. -/
theorem passes_opcode_iff (m : Memory) (pc : Cell) :
    Check.opcode.Passes m pc ↔ ¬ (m.wordAt pc < 0 ∨ (m.opcodeAt pc).isKnown = false) := by
  have nonneg : ¬ m.wordAt pc < 0 ↔ 0 ≤ (m.wordAt pc).toInt := by
    rw [Int64.not_lt, Int64.le_iff_toInt_le]
    rfl
  rw [not_or, nonneg, Bool.not_eq_false, Memory.opcodeAt, Opcode.isKnown_ofCode, Int64.toInt_mod]
  refine and_congr_right fun natural => ?_
  rw [Int.tmod_eq_emod_of_nonneg natural]
  rfl

/-- The remainder of a negative word is never the code of an operation. -/
private theorem remainder_nonpos {word : Cell} (negative : word.toInt < 0) :
    (word % 100).toInt ≤ 0 := by
  rw [Int64.toInt_mod]
  have mirrored := Int.tmod_nonneg 100 (Int.neg_nonneg_of_nonpos (Int.le_of_lt negative))
  rw [Int.neg_tmod] at mirrored
  exact Int.nonpos_of_neg_nonneg mirrored

/-- A word that is refused has no operands. -/
theorem layout_of_refused {m : Memory} {pc : Cell}
    (refused : m.wordAt pc < 0 ∨ (m.opcodeAt pc).isKnown = false) :
    (m.opcodeAt pc).layout = [] := by
  refine Opcode.layout_of_unknown ?_
  obtain negative | unknown := refused
  · have below := remainder_nonpos (Int64.lt_iff_toInt_lt.mp negative)
    rw [← Bool.not_eq_true, Memory.opcodeAt, Opcode.isKnown_ofCode]
    simp only [List.mem_cons, List.not_mem_nil, or_false]
    omega
  · exact unknown

/-- The operation of a word is read off its two low decimal digits, and a negative word has none. -/
theorem opcodeAt_eq_iff (m : Memory) (pc : Cell) {op : Opcode} (known : op.isKnown) :
    m.opcodeAt pc = op ↔
      0 ≤ (m.wordAt pc).toInt ∧ (m.wordAt pc).toInt % 100 = op.code.toInt := by
  rw [Memory.opcodeAt, Opcode.ofCode_eq_iff known, ← Int64.toInt_inj]
  rcases Int.lt_or_le (m.wordAt pc).toInt 0 with negative | natural
  · have below := remainder_nonpos negative
    have positive : 0 < op.code.toInt := by
      cases op with
      | unknown code => cases known
      | _ => decide
    omega
  · rw [Int64.toInt_mod, Int.tmod_eq_emod_of_nonneg natural]
    exact (and_iff_right natural).symm

/-- Decoding follows the layout up to the first check that fails. -/
theorem decode_cases (m : Memory) (pc : Cell) :
    (Check.failing? m pc (m.opcodeAt pc).checks = none ∧
      ∃ ins, decode m pc = .ok ins ∧ Filled m pc (m.opcodeAt pc).layout ins) ∨
      ∃ c u, Check.failing? m pc (m.opcodeAt pc).checks = some c ∧
        decode m pc = .error u ∧ u.failure.cause = c.cause ∧
        Filled m pc ((m.opcodeAt pc).layout.takeWhile fun p => c ∉ p.checks) u.resolved := by
  obtain ⟨word, fetched, present⟩ | ⟨f, unread, cause, missing⟩ := m.read_cases pc
  · obtain rfl := Memory.wordAt_of_read fetched
    have fetch : Check.fetch.Passes m pc := by simp [Check.Passes, present]
    rw [decode_eq fetched]
    by_cases refused : m.wordAt pc < 0 ∨ (m.opcodeAt pc).isKnown = false
    · have fails := mt (passes_opcode_iff m pc).mp (not_not_intro refused)
      refine .inr ⟨.opcode, _, ?_, if_pos refused, rfl, ?_⟩
      · simp [Check.failing?, Opcode.checks, fetch, fails]
      · rw [layout_of_refused refused]
        exact filled_nil m pc
    · have opcode := (passes_opcode_iff m pc).mpr refused
      have operands : Check.failing? m pc (m.opcodeAt pc).checks =
          Check.failing? m pc ((m.opcodeAt pc).layout.flatMap Parameter.checks) := by
        simp [Check.failing?, Opcode.checks, fetch, opcode]
      rw [operands, if_neg refused]
      exact fill_cases opcode.1 (fun p member => (Opcode.number_of_mem_layout member).2)
        (filled_nil m pc) (Opcode.nodup_layout _)
  · have nothing : m.wordAt pc = 0 := by rw [Memory.wordAt, missing, Option.getD_none]
    have op : m.opcodeAt pc = .unknown 0 := by rw [Memory.opcodeAt, nothing]; rfl
    refine .inr ⟨.fetch, ⟨{}, f.within (.fetch pc)⟩, ?_, ?_, cause, ?_⟩
    · simp [Check.failing?, Opcode.checks, Check.Passes, missing]
    · simp only [decode, unread]
    · have empty := filled_nil m pc
      rw [op] at empty ⊢
      exact empty

theorem op_of_decode {ins : Instruction} (decoded : decode m pc = .ok ins) :
    ins.op = m.opcodeAt pc := by
  obtain ⟨-, _, decodedToo, filled⟩ | ⟨_, _, -, failed, -⟩ := decode_cases m pc
  · cases decoded.symm.trans decodedToo
    exact filled.op
  · cases decoded.symm.trans failed

/-- The operands that are filled in determine the instruction. -/
theorem Filled.eq_of_content {other : Memory} {ps : List Parameter} {ins twin : Instruction}
    (filled : Filled m pc ps ins) (too : Filled other pc ps twin)
    (op : other.opcodeAt pc = m.opcodeAt pc)
    (content : ∀ p ∈ ps, p.content? other pc = p.content? m pc) : twin = ins := by
  have fields (field : Field) : twin.get field = ins.get field := by
    by_cases used : field ∈ ps.map Parameter.field
    · obtain ⟨p, member, rfl⟩ := List.mem_map.mp used
      have same := content p member
      rw [filled.resolved p member, too.resolved p member] at same
      exact Option.some.inj same
    · rw [filled.rest field used, too.rest field used]
  have ops : twin.op = ins.op := by rw [filled.op, too.op, op]
  cases ins
  cases twin
  simp only [mk.injEq]
  exact ⟨ops, fields .a, fields .b, fields .dest⟩

/-- Decoding depends only on the operation, the checks and the content of the operands. -/
theorem decode_congr {other : Memory} (op : other.opcodeAt pc = m.opcodeAt pc)
    (passes : ∀ c ∈ (m.opcodeAt pc).checks, c.Passes other pc ↔ c.Passes m pc)
    (content : ∀ p ∈ (m.opcodeAt pc).layout, p.content? other pc = p.content? m pc) :
    (decode other pc).mapError Undecoded.gist = (decode m pc).mapError Undecoded.gist := by
  have decoded := decode_cases other pc
  rw [op, Check.failing?_congr passes] at decoded
  obtain ⟨passed, ins, ok, filled⟩ | ⟨c, u, failed, error, cause, filled⟩ := decode_cases m pc
  · obtain ⟨-, twin, ok', filled'⟩ | ⟨c, _, failed, _⟩ := decoded
    · rw [ok, ok', filled.eq_of_content filled' op content]
    · cases passed.symm.trans failed
  · obtain ⟨passed, _⟩ | ⟨d, u', failed', error', cause', filled'⟩ := decoded
    · cases passed.symm.trans failed
    · obtain rfl := Option.some.inj (failed'.symm.trans failed)
      have fields : u'.resolved = u.resolved :=
        filled.eq_of_content filled' op fun p member => content p (List.takeWhile_subset _ member)
      rw [error, error']
      simp only [Except.mapError, Undecoded.gist, fields, cause, cause']

/-- Two words with the same two low digits have the same operation. -/
theorem remainder_congr {word other : Cell} (natural : 0 ≤ word.toInt)
    (naturalToo : 0 ≤ other.toInt) (code : other.toInt % 100 = word.toInt % 100) :
    other % 100 = word % 100 := by
  rw [← Int64.toInt_inj, Int64.toInt_mod, Int64.toInt_mod, Int.tmod_eq_emod_of_nonneg natural,
    Int.tmod_eq_emod_of_nonneg naturalToo]
  exact code

/-! ## Digits without a meaning -/

/-- Two instruction words that agree in their operation and in the modes of its values. -/
structure Alike (op : Opcode) (word other : Cell) : Prop where
  nonneg : 0 ≤ word.toInt ∧ 0 ≤ other.toInt
  code : other.toInt % 100 = word.toInt % 100
  modes : ∀ operand field, .value operand field ∈ op.layout →
    operand.digit other = operand.digit word

private theorem Alike.remainder {op : Opcode} {word other : Cell} (alike : Alike op word other) :
    other % 100 = word % 100 :=
  remainder_congr alike.nonneg.1 alike.nonneg.2 alike.code

/-- An instruction word may be replaced by one that agrees with it in its operation and modes, if
no operand refers to the word itself. -/
theorem decode_write {written : Memory} {word : Cell} (stored : m.write pc word = .ok written)
    (alike : Alike (m.opcodeAt pc) (m.wordAt pc) word)
    (apart : ∀ operand field, .value operand field ∈ (m.opcodeAt pc).layout →
      operand.digit word = 0 → m.cell? (pc.toInt + operand.number) ≠ some pc) :
    (decode written pc).mapError Undecoded.gist = (decode m pc).mapError Undecoded.gist := by
  have fetched : written.wordAt pc = word := Memory.wordAt_write stored
  have behind {n : Nat} (positive : 1 ≤ n) :
      written.cell? (pc.toInt + n) = m.cell? (pc.toInt + n) := by
    rw [Memory.cell?_write stored, if_neg (by omega)]
  have target {operand : Operand} {field : Field}
      (member : .value operand field ∈ (m.opcodeAt pc).layout) (position : operand.digit word = 0) :
      operand.target? written pc = operand.target? m pc := by
    rw [Operand.target?, Operand.target?, behind operand.number_pos]
    refine Option.bind_congr fun address found => ?_
    -- Only here could the new word show, as the value of an operand that refers to it.
    rw [Memory.cell?_write stored, if_neg]
    intro here
    exact apart operand field member position (Int64.toInt_inj.mp here ▸ found)
  refine decode_congr ?_ ?_ ?_
  · rw [Memory.opcodeAt, Memory.opcodeAt, fetched, alike.remainder]
  · intro c member
    obtain rfl | rfl | ⟨p, inside, member⟩ := Opcode.mem_checks.mp member
    · rw [Check.Passes, Check.Passes, Memory.cell?_write stored, if_pos rfl]
      exact iff_of_true rfl (Memory.isSome_of_write stored)
    · rw [Check.Passes, Check.Passes, fetched, alike.code]
      exact and_congr_left fun _ => iff_of_true alike.nonneg.2 alike.nonneg.1
    · cases p with
      | address number field =>
        obtain rfl := List.mem_singleton.mp member
        have positive : 1 ≤ number := (Opcode.number_of_mem_layout inside).1
        rw [Check.Passes, Check.Passes, behind positive]
      | value operand field =>
        have digit := alike.modes operand field inside
        simp only [Parameter.checks, List.mem_cons, List.not_mem_nil, or_false] at member
        obtain rfl | rfl | rfl := member
        · rw [Check.Passes, Check.Passes, behind operand.number_pos]
        · rw [Check.Passes, Check.Passes, fetched, digit]
        · rw [Check.Passes, Check.Passes, fetched, digit]
          exact imp_congr_right fun zero => by rw [target inside (digit.trans zero)]
  · intro p inside
    cases p with
    | address number field => exact behind (Opcode.number_of_mem_layout inside).1
    | value operand field =>
      have digit := alike.modes operand field inside
      rw [Parameter.content?, Parameter.content?, fetched, digit, behind operand.number_pos]
      by_cases zero : operand.digit (m.wordAt pc) = 0
      · rw [if_pos zero, if_pos zero, target inside (digit.trans zero)]
      · rw [if_neg zero, if_neg zero]

/-- Decoding is the format of instructions: the two low decimal digits of a word are the code of its
operation, the layout of an operation covers the cells that its instructions occupy, an instruction
is decoded exactly if all of its checks pass, its fields then hold the operands of the layout, and
otherwise the first check that fails gives the cause and the fields hold the operands before it. The
digits of the word that are neither in the operation nor in the mode of a value do not matter,
unless an operand refers to the word itself. -/
theorem decode_format (m : Memory) (pc : Cell) :
    (∀ entry ∈ ([(1, .add), (2, .mul), (3, .input), (4, .output), (5, .jumpIfTrue),
          (6, .jumpIfFalse), (7, .lessThan), (8, .equals), (99, .halt)] : List (Int × Opcode)),
        m.opcodeAt pc = entry.2 ↔
          0 ≤ (m.wordAt pc).toInt ∧ (m.wordAt pc).toInt % 100 = entry.1) ∧
      (m.opcodeAt pc).layout.map Parameter.number =
        List.range' 1 (({ op := m.opcodeAt pc } : Instruction).size - 1) ∧
      ((∃ ins, decode m pc = .ok ins) ↔ ∀ c ∈ (m.opcodeAt pc).checks, c.Passes m pc) ∧
      (∀ ins, decode m pc = .ok ins → Filled m pc (m.opcodeAt pc).layout ins) ∧
      (∀ c, Check.failing? m pc (m.opcodeAt pc).checks = some c →
        ∃ u, decode m pc = .error u ∧ u.failure.cause = c.cause ∧
          Filled m pc ((m.opcodeAt pc).layout.takeWhile fun p => c ∉ p.checks) u.resolved) ∧
      ∀ word written, m.write pc word = .ok written →
        Alike (m.opcodeAt pc) (m.wordAt pc) word →
        (∀ operand field, .value operand field ∈ (m.opcodeAt pc).layout →
          operand.digit word = 0 → m.cell? (pc.toInt + operand.number) ≠ some pc) →
        (decode written pc).mapError Undecoded.gist = (decode m pc).mapError Undecoded.gist := by
  refine ⟨fun entry listed => ?_, Opcode.numbers_layout { op := m.opcodeAt pc }, ?_, ?_, ?_,
    fun _ _ => decode_write⟩
  · obtain ⟨known, code⟩ : entry.2.isKnown ∧ entry.2.code.toInt = entry.1 := by
      revert entry
      decide
    rw [opcodeAt_eq_iff m pc known, code]
  all_goals
    obtain ⟨passed, ins, ok, filled⟩ | ⟨c, u, failed, error, cause, filled⟩ := decode_cases m pc
  · exact iff_of_true ⟨ins, ok⟩ (Check.failing?_eq_none.mp passed)
  · refine iff_of_false ?_ fun all => ?_
    · rintro ⟨ins, ok⟩
      cases error.symm.trans ok
    · exact Check.not_passes_of_failing? failed (all c (Check.mem_of_failing? failed))
  · intro other too
    obtain rfl := Except.ok.inj (ok.symm.trans too)
    exact filled
  · intro other too
    cases error.symm.trans too
  · intro c failed
    cases passed.symm.trans failed
  · intro d first
    obtain rfl := Option.some.inj (failed.symm.trans first)
    exact ⟨u, error, cause, filled⟩

/-- The product of a cell and three: the higher digits of its word are free. -/
theorem decode_format_product :
    (Memory.ofList [1002, 4, 3, 4, 33]).opcodeAt 0 = .mul ∧
      (Memory.ofList [1101, 4, 3, 4, 33]).opcodeAt 0 = .add ∧
      (decode (.ofList [7701002, 4, 3, 4, 33]) 0).mapError Undecoded.gist =
        (decode (.ofList [1002, 4, 3, 4, 33]) 0).mapError Undecoded.gist ∧
      Filled (.ofList [1002, 4, 3, 4, 33]) 0 Opcode.mul.layout ⟨.mul, 33, 3, 4⟩ ∧
      ∃ u, decode (.ofList [102, 7, 9, 0]) 0 = .error u ∧
        u.failure.cause = .addressOutOfBounds ∧
        Filled (.ofList [102, 7, 9, 0]) 0 [.value .first .a] u.resolved := by
  obtain ⟨coded, -, -, resolved, -, free⟩ := decode_format (.ofList [1002, 4, 3, 4, 33]) 0
  refine ⟨(coded (2, .mul) (by decide)).mpr (by decide), ?_, ?_, resolved _ (by decide), ?_⟩
  · exact ((decode_format (.ofList [1101, 4, 3, 4, 33]) 0).1 (1, .add) (by decide)).mpr (by decide)
  · refine free 7701002 _ rfl ⟨?_, ?_, ?_⟩ ?_
    · decide
    · decide
    · rintro (_ | _) field _ <;> decide
    · rintro (_ | _) field _ <;> decide
  · obtain ⟨-, -, -, -, failed, -⟩ := decode_format (.ofList [102, 7, 9, 0]) 0
    exact failed (.cell .second) (by decide)

end Instruction

end CellMachine
