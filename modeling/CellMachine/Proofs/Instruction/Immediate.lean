import CellMachine.Proofs.Instruction.Format
import Mathlib.Algebra.Group.Int.Defs
import Mathlib.Data.List.Nodup

/-! # Position and immediate operands

An operand in position mode gives the address of its value, and one in immediate mode gives the
value itself. The one may be turned into the other: if the word of an operand is replaced by the
value that it refers to, and the digit of its mode by a one, the same instruction is decoded. The
two words that change must not be read through the other operand.
-/

namespace CellMachine

namespace Operand

variable {operand : Operand} {word raised : Cell}

private theorem digit_eq_zero_iff (natural : 0 ≤ word.toInt) :
    operand.digit word = 0 ↔ operand.mode word = .position := by
  obtain ⟨zero, mode⟩ | ⟨one, mode⟩ | ⟨⟨nonzero, -⟩, digit, mode⟩ := operand.mode_cases natural
  · exact iff_of_true zero mode
  · exact iff_of_false (by omega) (by rw [mode]; nofun)
  · exact iff_of_false nonzero (by rw [mode]; nofun)

/-- A digit that is zero can be raised to one, in the greatest words too. -/
theorem exists_raised (position : operand.digit word = 0) :
    ∃ raised : Cell, raised.toInt = word.toInt + 10 ^ (operand.number + 1) := by
  have low := word.le_toInt
  have high := word.toInt_lt
  obtain ⟨least, greatest⟩ :
      Cell.Representable (word.toInt + 10 ^ (operand.number + 1)) := by
    unfold Cell.Representable
    cases operand <;> simp only [digit, number] at position ⊢ <;> omega
  exact ⟨Int64.ofInt _, Int64.toInt_ofInt_of_le (by omega) (by omega)⟩

/-- Raising the digit of one operand leaves the operation and the other digit alone. -/
theorem digit_raised (position : operand.digit word = 0)
    (higher : raised.toInt = word.toInt + 10 ^ (operand.number + 1)) :
    raised.toInt % 100 = word.toInt % 100 ∧ operand.digit raised = 1 ∧
      ∀ other ≠ operand, other.digit raised = other.digit word := by
  cases operand with
  | first =>
    simp only [digit, number] at position higher ⊢
    refine ⟨by omega, by omega, ?_⟩
    rintro (_ | _) apart
    · exact (apart rfl).elim
    · dsimp only
      omega
  | second =>
    simp only [digit, number] at position higher ⊢
    refine ⟨by omega, by omega, ?_⟩
    rintro (_ | _) apart
    · dsimp only
      omega
    · exact (apart rfl).elim

private theorem number_ne {other : Operand} (apart : other ≠ operand) :
    other.number ≠ operand.number := by
  cases operand <;> cases other <;> first | exact (apart rfl).elim | decide

end Operand

/-- No two operands of an operation have the same word. -/
theorem Opcode.eq_of_number {op : Opcode} {p q : Parameter} (member : p ∈ op.layout)
    (memberToo : q ∈ op.layout) (same : p.number = q.number) : p = q := by
  have nodup : (op.layout.map Parameter.number).Nodup := by
    rw [numbers_layout { op }]
    exact List.nodup_range'
  exact List.inj_on_of_nodup_map nodup member memberToo same

namespace Instruction

variable {m changed : Memory} {pc raised value : Cell} {operand : Operand} {field : Field}

/-- The memory with the instruction word at an address and the word of one operand replaced. -/
structure Rewrites (m : Memory) (pc : Cell) (operand : Operand) (raised value : Cell)
    (changed : Memory) : Prop where
  word : changed.wordAt pc = raised
  fetch : (changed.cell? pc.toInt).isSome
  own : changed.cell? (pc.toInt + operand.number) = some value
  rest : ∀ address, address ≠ pc.toInt → address ≠ pc.toInt + operand.number →
    changed.cell? address = m.cell? address

namespace Rewrites

variable (rewrites : Rewrites m pc operand raised value changed)

include rewrites

/-- The words behind the instruction word are there as before. -/
theorem isSome {number : Nat} (positive : 1 ≤ number)
    (present : (m.cell? (pc.toInt + number)).isSome) :
    (changed.cell? (pc.toInt + number)).isSome := by
  by_cases same : number = operand.number
  · rw [same, rewrites.own]
    rfl
  · rw [rewrites.rest _ (by omega) (by omega)]
    exact present

/-- The word of another operand is as before. -/
theorem behind {number : Nat} (positive : 1 ≤ number) (apart : number ≠ operand.number) :
    changed.cell? (pc.toInt + number) = m.cell? (pc.toInt + number) :=
  rewrites.rest _ (by omega) (by omega)

/-- The other operand refers to the same value, unless it refers to one of the words replaced. -/
theorem target {other : Operand} (apart : other ≠ operand)
    (elsewhere : ∀ address, m.cell? (pc.toInt + other.number) = some address →
      address.toInt ≠ pc.toInt ∧ address.toInt ≠ pc.toInt + operand.number) :
    other.target? changed pc = other.target? m pc := by
  rw [Operand.target?, Operand.target?,
    rewrites.behind other.number_pos (Operand.number_ne apart)]
  refine Option.bind_congr fun address found => ?_
  obtain ⟨notWord, notOwn⟩ := elsewhere address found
  exact rewrites.rest _ notWord notOwn

end Rewrites

/-- The words to be replaced are not read through another operand. -/
def Apart (m : Memory) (pc : Cell) (operand : Operand) : Prop :=
  ∀ other field, .value other field ∈ (m.opcodeAt pc).layout → other ≠ operand →
    other.digit (m.wordAt pc) = 0 → ∀ address, m.cell? (pc.toInt + other.number) = some address →
      address.toInt ≠ pc.toInt ∧ address.toInt ≠ pc.toInt + operand.number

section

variable (rewrites : Rewrites m pc operand raised value changed) (apart : Apart m pc operand)
  (one : operand.digit raised = 1)
  (others : ∀ other ≠ operand, other.digit raised = other.digit (m.wordAt pc))

include rewrites apart one others

/-- The checks on an operand pass as before. -/
theorem Rewrites.passes {p : Parameter} {c : Check} (inside : p ∈ (m.opcodeAt pc).layout)
    (member : c ∈ p.checks) (passed : c.Passes m pc) : c.Passes changed pc := by
  cases p with
  | address number field =>
    obtain rfl := List.mem_singleton.mp member
    exact rewrites.isSome (Opcode.number_of_mem_layout inside).1 passed
  | value other field =>
    simp only [Parameter.checks, List.mem_cons, List.not_mem_nil, or_false] at member
    obtain rfl | rfl | rfl := member
    · exact rewrites.isSome other.number_pos passed
    · rw [Check.Passes, rewrites.word]
      by_cases same : other = operand
      · rw [same]
        exact .inr one
      · rw [others other same]
        exact passed
    · rw [Check.Passes, rewrites.word]
      by_cases same : other = operand
      · rw [same, one]
        exact fun impossible => absurd impossible (by decide)
      · rw [others other same]
        intro zero
        rw [rewrites.target same (apart other field inside same zero)]
        exact passed zero

/-- The operands have the same content as before. -/
theorem Rewrites.content (taken : .value operand field ∈ (m.opcodeAt pc).layout)
    (position : operand.digit (m.wordAt pc) = 0) (found : operand.target? m pc = some value)
    {p : Parameter} (inside : p ∈ (m.opcodeAt pc).layout) :
    p.content? changed pc = p.content? m pc := by
  by_cases same : p = .value operand field
  · subst same
    rw [Parameter.content?, Parameter.content?, rewrites.word, one, position, found]
    exact rewrites.own
  · have distinct : p.number ≠ operand.number :=
      fun equal => same (Opcode.eq_of_number inside taken equal)
    have word := rewrites.behind (Opcode.number_of_mem_layout inside).1 distinct
    cases p with
    | address number field => exact word
    | value other otherField =>
      have differs : other ≠ operand := fun equal => distinct (congrArg Operand.number equal)
      rw [Parameter.number] at word
      rw [Parameter.content?, Parameter.content?, rewrites.word, others other differs, word]
      by_cases zero : other.digit (m.wordAt pc) = 0
      · rw [if_pos zero, if_pos zero, rewrites.target differs (apart _ _ inside differs zero)]
      · rw [if_neg zero, if_neg zero]

end

/-- The same instruction is decoded once the word of an operand in position mode is replaced by the
value that it refers to and the digit of its mode by a one. -/
theorem decode_of_rewrites {ins : Instruction} (decoded : decode m pc = .ok ins)
    (taken : .value operand field ∈ (m.opcodeAt pc).layout)
    (position : operand.digit (m.wordAt pc) = 0) (found : operand.target? m pc = some value)
    (higher : raised.toInt = (m.wordAt pc).toInt + 10 ^ (operand.number + 1))
    (rewrites : Rewrites m pc operand raised value changed) (apart : Apart m pc operand) :
    decode changed pc = .ok ins := by
  obtain ⟨passed, -⟩ | ⟨_, _, -, failed, -⟩ := decode_cases m pc
  swap
  · cases decoded.symm.trans failed
  have passes := Check.failing?_eq_none.mp passed
  obtain ⟨natural, known⟩ := passes .opcode (Opcode.mem_checks.mpr (.inr (.inl rfl)))
  have naturalToo : 0 ≤ raised.toInt := by
    rw [higher]
    exact Int.add_nonneg natural (Int.pow_nonneg (by decide))
  obtain ⟨code, one, others⟩ := Operand.digit_raised position higher
  have same : (decode changed pc).mapError Undecoded.gist =
      (decode m pc).mapError Undecoded.gist := by
    refine decode_congr ?_ (fun c member => iff_of_true ?_ (passes c member)) ?_
    · rw [Memory.opcodeAt, Memory.opcodeAt, rewrites.word,
        remainder_congr natural naturalToo code]
    · obtain rfl | rfl | ⟨p, inside, own⟩ := Opcode.mem_checks.mp member
      · exact rewrites.fetch
      · rw [Check.Passes, rewrites.word, code]
        exact ⟨naturalToo, known⟩
      · exact rewrites.passes apart one others inside own (passes c member)
    · exact fun p inside => rewrites.content apart one others taken position found inside
  rw [decoded] at same
  cases again : decode changed pc with
  | error u =>
    rw [again] at same
    cases same
  | ok twin =>
    rw [again] at same
    cases same
    rfl

/-- Two writes replace the instruction word and the word of an operand. -/
theorem rewrites_of_write {half : Memory}
    (place : (pc + operand.offset).toInt = pc.toInt + operand.number)
    (stored : m.write (pc + operand.offset) value = .ok half)
    (raisedTo : half.write pc raised = .ok changed) :
    Rewrites m pc operand raised value changed where
  word := Memory.wordAt_write raisedTo
  fetch := by
    rw [Memory.cell?_write raisedTo, if_pos rfl]
    rfl
  own := by
    have positive := operand.number_pos
    rw [Memory.cell?_write raisedTo, if_neg (by omega), Memory.cell?_write stored,
      if_pos place.symm]
  rest address notWord notOwn := by
    rw [Memory.cell?_write raisedTo, if_neg notWord, Memory.cell?_write stored,
      if_neg (by rwa [place])]

/-- Position and immediate operands are interchangeable. Take an instruction that is decoded and one
of its values that is in position mode, and replace the word of this operand by its value and the
digit of its mode by a one, which never leaves the range of cells. If the other value, in position
mode, refers to neither of the two words, the same instruction is decoded. -/
theorem decode_immediate {m : Memory} {pc word : Cell} {ins : Instruction}
    (decoded : decode m pc = .ok ins) (fetched : m.read pc = .ok word) {operand : Operand}
    {field : Field} (taken : .value operand field ∈ ins.op.layout)
    (position : operand.mode word = .position)
    (apart : ∀ other otherField, .value other otherField ∈ ins.op.layout → other ≠ operand →
      other.mode word = .position → ∀ address, m.read (pc + other.offset) = .ok address →
        address ≠ pc ∧ address ≠ pc + operand.offset) :
    ∃ value raised half changed, operand.resolve m pc word = .ok value ∧
      raised.toInt = word.toInt + 10 ^ (operand.number + 1) ∧
      m.write (pc + operand.offset) value = .ok half ∧ half.write pc raised = .ok changed ∧
      decode changed pc = .ok ins := by
  obtain rfl := Memory.wordAt_of_read fetched
  obtain ⟨passed, _, decodedToo, filled⟩ | ⟨_, _, -, failed, -⟩ := decode_cases m pc
  swap
  · cases decoded.symm.trans failed
  cases decoded.symm.trans decodedToo
  rw [filled.op] at taken apart
  have passes := Check.failing?_eq_none.mp passed
  have check {c : Check} (member : c ∈ (Parameter.value operand field).checks) : c.Passes m pc :=
    passes c (Opcode.mem_checks.mpr (.inr (.inr ⟨_, taken, member⟩)))
  have natural := (passes .opcode (Opcode.mem_checks.mpr (.inr (.inl rfl)))).1
  have zero := (Operand.digit_eq_zero_iff natural).mpr position
  -- The value of the operand is what its word refers to.
  obtain ⟨value, resolved, content⟩ : ∃ value, operand.resolve m pc (m.wordAt pc) = .ok value ∧
      (Parameter.value operand field).content? m pc = some value := by
    obtain ⟨-, found⟩ | ⟨c, _, failing, -⟩ := Parameter.value_cases natural operand field
    · exact found
    · exact (Check.not_passes_of_failing? failing (check (Check.mem_of_failing? failing))).elim
  rw [Parameter.content?, if_pos zero] at content
  -- The two words are there to be replaced, and the address of the one has not wrapped.
  have present : (m.cell? (pc.toInt + operand.number)).isSome := check List.mem_cons_self
  have place : (pc + operand.offset).toInt = pc.toInt + operand.number := by
    rw [← operand.toInt_offset] at present ⊢
    exact Memory.toInt_add_of_isSome present
  obtain ⟨raised, higher⟩ := Operand.exists_raised zero
  obtain ⟨half, stored⟩ := Memory.exists_write (place.symm ▸ present) value
  have presentToo : (half.cell? pc.toInt).isSome := by
    have positive := operand.number_pos
    rw [Memory.cell?_write stored, if_neg (by omega)]
    exact passes .fetch List.mem_cons_self
  obtain ⟨changed, raisedTo⟩ := Memory.exists_write presentToo raised
  refine ⟨value, raised, half, changed, resolved, higher, stored, raisedTo, ?_⟩
  refine decode_of_rewrites decoded taken zero content higher
    (rewrites_of_write place stored raisedTo) ?_
  intro other otherField inside differs zeroToo address found
  obtain ⟨_, read, same⟩ | ⟨_, -, -, missing⟩ := m.read_add_cases pc other.toInt_offset
  · obtain rfl := Option.some.inj (same.symm.trans found)
    obtain ⟨notWord, notOwn⟩ := apart other otherField inside differs
      ((Operand.digit_eq_zero_iff natural).mp zeroToo) _ read
    exact ⟨fun equal => notWord (Int64.toInt_inj.mp equal),
      fun equal => notOwn (Int64.toInt_inj.mp (equal.trans place.symm))⟩
  · cases missing.symm.trans found

/-- The product of two cells: the address of the first is replaced by its content, and the second
is still read through its address. -/
theorem decode_immediate_product :
    decode (.ofList [2, 4, 5, 4, 33, 3]) 0 = .ok ⟨.mul, 33, 3, 4⟩ ∧
      decode (.ofList [102, 33, 5, 4, 33, 3]) 0 = .ok ⟨.mul, 33, 3, 4⟩ := by
  have decoded : decode (.ofList [2, 4, 5, 4, 33, 3]) 0 = .ok ⟨.mul, 33, 3, 4⟩ := by decide
  have fetched : (Memory.ofList [2, 4, 5, 4, 33, 3]).read 0 = .ok 2 := rfl
  have taken : .value .first .a ∈ (Instruction.mk .mul 33 3 4).op.layout := by decide
  obtain ⟨value, raised, half, changed, resolved, higher, stored, raisedTo, again⟩ :=
    decode_immediate decoded fetched taken (by decide) (by
      rintro (_ | _) field - differs - address read
      · exact (differs rfl).elim
      · cases read
        decide)
  obtain rfl : raised = 102 := Int64.toInt_inj.mp higher
  cases resolved
  cases stored
  cases raisedTo
  exact ⟨decoded, again⟩

end Instruction

end CellMachine
