import CellMachine.Text.Decimal
import CellMachine.Text.Numeral
import Mathlib.Data.List.Basic

/-! # Decimal numerals and their values

A run of decimal digits has a value in base ten. Reading a decimal succeeds exactly on a non-empty
run of digits whose signed value is that of a cell, and gives that cell. The decimal text of a cell
is such a run behind its sign, so it is read back.
-/

namespace CellMachine

theorem Cell.representable_toInt (c : Cell) : Cell.Representable c.toInt :=
  ⟨c.le_toInt, c.toInt_le⟩

/-- A cell is made from its own value and from no other number. -/
theorem Cell.ofInt?_eq_some {n : Int} {c : Cell} : Cell.ofInt? n = some c ↔ c.toInt = n := by
  simp only [Cell.ofInt?, Option.ite_none_right_eq_some, Option.some.injEq]
  constructor
  · rintro ⟨⟨low, high⟩, rfl⟩
    exact Int64.toInt_ofInt_of_le (by omega) (by omega)
  · rintro rfl
    exact ⟨c.representable_toInt, Int64.ofInt_toInt c⟩

namespace Text

namespace Symbol

private theorem digitIn?_eq_some {radix : Radix} {s : Symbol} {d : Nat} :
    s.digitIn? radix = some d ↔ s.digit? = some d ∧ d < radix.base := by
  cases found : s.digit? with
  | none => simp [digitIn?, found]
  | some digit =>
    simp only [digitIn?, found, Option.ite_none_right_eq_some, Option.some.injEq]
    constructor
    · rintro ⟨small, rfl⟩
      exact ⟨rfl, small⟩
    · rintro ⟨rfl, small⟩
      exact ⟨small, rfl⟩

private theorem digit?_eq_some_of_lt {s : Symbol} {d : Nat} (small : d < 10) :
    s.digit? = some d ↔ ∃ c, s = .char c ∧ c.isDigit ∧ c.toNat = '0'.toNat + d := by
  have le (a b : Char) : a ≤ b ↔ a.toNat ≤ b.toNat := UInt32.le_iff_toNat_le
  cases s with
  | bad byte => simp [digit?]
  | char c =>
    simp only [digit?, le, Char.isDigit_iff_toNat, Char.reduceToNat, char.injEq,
      exists_eq_left']
    split
    · simp only [Option.some.injEq]
      omega
    split
    · simp only [Option.some.injEq]
      omega
    split
    · simp only [Option.some.injEq]
      omega
    · simp only [reduceCtorEq, false_iff]
      omega

/-- The decimal digits are those of the character class, with their distance from zero. -/
theorem digitIn?_decimal {s : Symbol} {d : Nat} : s.digitIn? .decimal = some d ↔
    ∃ c, s = .char c ∧ c.isDigit ∧ c.toNat = '0'.toNat + d := by
  rw [digitIn?_eq_some]
  constructor
  · rintro ⟨found, small⟩
    exact (digit?_eq_some_of_lt small).1 found
  · rintro ⟨c, rfl, digit, number⟩
    have small : d < 10 := by
      have bound := (Char.isDigit_iff_toNat.1 digit).2
      simp only [number, Char.reduceToNat] at bound
      omega
    exact ⟨(digit?_eq_some_of_lt small).2 ⟨c, rfl, digit, number⟩, small⟩

theorem isDecimal_iff {s : Symbol} : s.isDecimal ↔ ∃ c, s = .char c ∧ c.isDigit := by
  rw [isDecimal, Option.isSome_iff_exists]
  constructor
  · rintro ⟨d, found⟩
    obtain ⟨c, rfl, digit, -⟩ := digitIn?_decimal.1 found
    exact ⟨c, rfl, digit⟩
  · rintro ⟨c, rfl, digit⟩
    have bound := (Char.isDigit_iff_toNat.1 digit).1
    exact ⟨c.toNat - '0'.toNat, digitIn?_decimal.2 ⟨c, rfl, digit, by omega⟩⟩

@[simp]
theorem isDecimal_char (c : Char) : (char c).isDecimal = c.isDigit := by
  rw [Bool.eq_iff_iff, isDecimal_iff]
  simp

/-- Eight and nine are the decimal digits that base eight lacks. -/
theorem digitIn?_octal_eq_none {c : Char} (digit : c.isDigit) :
    (char c).digitIn? .octal = none ↔ c = '8' ∨ c = '9' := by
  obtain ⟨low, high⟩ := Char.isDigit_iff_toNat.1 digit
  simp only [Char.reduceToNat] at low high
  have found : (char c).digit? = some (c.toNat - '0'.toNat) :=
    (digit?_eq_some_of_lt (by simp only [Char.reduceToNat]; omega)).2
      ⟨c, rfl, digit, by simp only [Char.reduceToNat]; omega⟩
  simp only [Option.eq_none_iff_forall_ne_some, ne_eq, digitIn?_eq_some, found, Option.some.injEq,
    not_and, forall_eq', ← Char.toNat_inj, Char.reduceToNat, Radix.base]
  omega

theorem isSeparator_of_isDigit {c : Char} (digit : c.isDigit) : (char c).isSeparator = false := by
  simp only [isSeparator, is, beq_eq_false_iff_ne]
  rintro rfl
  contradiction

theorem ofLetter?_of_isDigit {c : Char} (digit : c.isDigit) :
    Radix.ofLetter? (char c) = none := by
  unfold Radix.ofLetter?
  split
  case h_7 => rfl
  all_goals
    rename_i letter
    cases letter
    contradiction

end Symbol

namespace Numeral

/-- The number that decimal digits stand for behind a sign. -/
def value (negative : Bool) (digits : List Char) : Int :=
  if negative then -(Nat.ofDigitChars 10 digits 0 : Int) else Nat.ofDigitChars 10 digits 0

private theorem le_ofDigitChars (digits : List Char) (init : Nat) :
    init ≤ Nat.ofDigitChars 10 digits init := by
  rw [Nat.ofDigitChars_eq_ofDigitChars_zero]
  have scaled := Nat.le_mul_of_pos_left init (Nat.pow_pos (n := digits.length) (by decide : 0 < 10))
  omega

/-- A magnitude is read exactly from decimal digits, and from those whose value fits. -/
theorem magnitude_eq_ok {init n : Nat} {text : List Symbol} (small : init < limit) :
    magnitude .decimal false init text = .ok n ↔
      ∃ digits : List Char, text = digits.map .char ∧ (∀ c ∈ digits, c.isDigit) ∧
        Nat.ofDigitChars 10 digits init = n ∧ n < limit := by
  induction text generalizing init with
  | nil =>
    simp only [magnitude, Except.ok.injEq, List.nil_eq, List.map_eq_nil_iff, exists_eq_left]
    constructor
    · rintro rfl
      exact ⟨by simp, rfl, small⟩
    · exact fun ⟨_, value, _⟩ => value
  | cons s rest ih =>
    simp only [magnitude, Bool.false_and, Bool.false_eq_true, if_false]
    constructor
    · intro read
      split at read
      case h_1 => cases read
      case h_2 d found =>
        obtain ⟨c, rfl, digit, number⟩ := Symbol.digitIn?_decimal.1 found
        split at read
        case isFalse => cases read
        case isTrue fits =>
          obtain ⟨digits, rfl, decimal, value, bound⟩ := (ih fits).1 read
          refine ⟨c :: digits, rfl, by simpa using ⟨digit, decimal⟩, ?_, bound⟩
          rw [Nat.ofDigitChars_cons, number, Nat.add_sub_cancel_left, Nat.mul_comm]
          exact value
    · rintro ⟨digits, spelled, decimal, value, bound⟩
      obtain ⟨c, digits, rfl, rfl, rfl⟩ := List.map_eq_cons_iff.1 spelled.symm
      have digit : c.isDigit := decimal c (by simp)
      have zero := (Char.isDigit_iff_toNat.1 digit).1
      have found := Symbol.digitIn?_decimal.2 ⟨c, rfl, digit, (Nat.add_sub_of_le zero).symm⟩
      rw [Nat.ofDigitChars_cons, Nat.mul_comm] at value
      have fits := le_ofDigitChars digits (init * 10 + (c.toNat - '0'.toNat))
      simp only [found]
      rw [if_pos (by simp only [Radix.base]; omega)]
      exact (ih (by simp only [Radix.base]; omega)).2
        ⟨digits, rfl, fun c member => decimal c (by simp [member]), value, bound⟩

private theorem signed_eq_ok {negative : Bool} {n : Nat} {c : Cell} :
    signed negative n = .ok c ↔ c.toInt = if negative then -(n : Int) else n := by
  rw [signed, ← Cell.ofInt?_eq_some]
  split <;> simp_all

private theorem splitSign_of_isDecimal {s : Symbol} {rest : List Symbol} (digit : s.isDecimal) :
    splitSign (s :: rest) = (false, s :: rest) := by
  rw [splitSign]
  all_goals
    rintro rest' equal
    cases equal
    cases digit

/-- Behind its sign, a decimal is read exactly from digits, as the cell of their value. -/
theorem decimal_of_split {negative : Bool} {text rest : List Symbol} {c : Cell}
    (split : splitSign text = (negative, rest)) (nonempty : rest ≠ []) :
    decimal text = .ok c ↔ ∃ digits : List Char, rest = digits.map .char ∧
      (∀ d ∈ digits, d.isDigit) ∧ c.toInt = value negative digits := by
  have zero : 0 < limit := by decide
  obtain ⟨s, rest, rfl⟩ := List.exists_cons_of_ne_nil nonempty
  simp only [decimal, split]
  constructor
  · intro read
    cases found : magnitude .decimal false 0 (s :: rest) with
    | error problem => simp [found, bind, Except.bind] at read
    | ok n =>
      obtain ⟨digits, spelled, decimal, rfl, -⟩ := (magnitude_eq_ok zero).1 found
      simp only [found, bind, Except.bind] at read
      exact ⟨digits, spelled, decimal, signed_eq_ok.1 read⟩
  · rintro ⟨digits, spelled, decimal, number⟩
    have bound : Nat.ofDigitChars 10 digits 0 < limit := by
      obtain ⟨low, high⟩ := c.representable_toInt
      simp only [value] at number
      simp only [limit]
      split at number <;> omega
    rw [(magnitude_eq_ok zero).2 ⟨digits, spelled, decimal, rfl, bound⟩]
    exact signed_eq_ok.2 number

/-- A decimal is read exactly from a non-empty run of digits behind its sign, as the cell of its
value. -/
theorem decimal_eq_ok {negative : Bool} {s : Symbol} {rest : List Symbol} {c : Cell}
    (digit : s.isDecimal) :
    decimal (if negative then .char '-' :: s :: rest else s :: rest) = .ok c ↔
      ∃ digits : List Char, s :: rest = digits.map .char ∧ (∀ d ∈ digits, d.isDigit) ∧
        c.toInt = value negative digits := by
  have split : splitSign (if negative then .char '-' :: s :: rest else s :: rest) =
      (negative, s :: rest) := by
    cases negative with
    | true => rfl
    | false => exact splitSign_of_isDecimal digit
  exact decimal_of_split split (List.cons_ne_nil s rest)

/-- The decimals of a cell: a non-empty run of digits, with or without a sign in front. -/
inductive IsDecimal : List Symbol → Cell → Prop
  | unsigned {digits : List Char} {c : Cell} (nonempty : digits ≠ [])
      (decimal : ∀ d ∈ digits, d.isDigit) (number : c.toInt = value false digits) :
      IsDecimal (digits.map .char) c
  | signed (negative : Bool) {digits : List Char} {c : Cell} (nonempty : digits ≠ [])
      (decimal : ∀ d ∈ digits, d.isDigit) (number : c.toInt = value negative digits) :
      IsDecimal (.char (if negative then '-' else '+') :: digits.map .char) c

/-- The decimals of a cell are read as that cell, and nothing else is. -/
theorem decimal_eq_ok_iff {text : List Symbol} {c : Cell} :
    decimal text = .ok c ↔ IsDecimal text c := by
  constructor
  · intro read
    -- The three cases of a minus, a plus and no sign, each with something behind it.
    have behind {negative : Bool} {rest : List Symbol}
        (split : splitSign text = (negative, rest)) : ∃ digits : List Char, digits ≠ [] ∧
          rest = digits.map .char ∧ (∀ d ∈ digits, d.isDigit) ∧
            c.toInt = value negative digits := by
      have nonempty : rest ≠ [] := by
        rintro rfl
        simp [decimal, split] at read
      obtain ⟨digits, rfl, decimal, number⟩ := (decimal_of_split split nonempty).1 read
      exact ⟨digits, fun empty => nonempty (by rw [empty, List.map_nil]), rfl, decimal, number⟩
    unfold splitSign at behind
    split at behind
    · obtain ⟨digits, nonempty, rfl, decimal, number⟩ := behind rfl
      exact .signed true nonempty decimal number
    · obtain ⟨digits, nonempty, rfl, decimal, number⟩ := behind rfl
      exact .signed false nonempty decimal number
    · obtain ⟨digits, nonempty, rfl, decimal, number⟩ := behind rfl
      exact .unsigned nonempty decimal number
  · intro spelled
    cases spelled with
    | @unsigned digits c nonempty decimal number =>
      obtain ⟨d, digits, rfl⟩ := List.exists_cons_of_ne_nil nonempty
      have digit : (Symbol.char d).isDecimal := by simpa using decimal d List.mem_cons_self
      exact (decimal_of_split (splitSign_of_isDecimal digit) (List.cons_ne_nil _ _)).2
        ⟨_, rfl, decimal, number⟩
    | @signed negative digits c nonempty decimal number =>
      have split : splitSign (.char (if negative then '-' else '+') :: digits.map .char) =
          (negative, digits.map .char) := by
        cases negative <;> rfl
      exact (decimal_of_split split (by simpa using nonempty)).2 ⟨_, rfl, decimal, number⟩

private theorem separatorsFit_of_isDigit (afterDigit : Bool) {digits : List Char}
    (decimal : ∀ c ∈ digits, c.isDigit) : separatorsFit afterDigit (digits.map .char) := by
  induction digits generalizing afterDigit with
  | nil => rfl
  | cons c digits ih =>
    simp only [List.map_cons, separatorsFit, Symbol.isSeparator_of_isDigit (decimal c (by simp))]
    exact ih true fun d member => decimal d (by simp [member])

/-- A run of digits has no separator that could be misplaced. -/
theorem wellSeparated_of_isDigit {digits : List Char} (decimal : ∀ c ∈ digits, c.isDigit) :
    wellSeparated (digits.map .char) := by
  unfold wellSeparated
  split
  case h_1 letter rest spelled =>
    obtain ⟨c, digits, rfl, -, spelled⟩ := List.map_eq_cons_iff.1 spelled
    obtain ⟨d, digits, rfl, rfl, rfl⟩ := List.map_eq_cons_iff.1 spelled
    simp only [Symbol.ofLetter?_of_isDigit (decimal d (by simp))]
    have others : ∀ e ∈ d :: digits, e.isDigit :=
      fun e member => decimal e (List.mem_cons_of_mem _ member)
    exact separatorsFit_of_isDigit true others
  case h_2 => exact separatorsFit_of_isDigit false decimal

end Numeral

namespace Decimal

theorem head?_ofNat {n : Nat} (positive : 0 < n) : (ofNat n).head? ≠ some '0' := by
  induction n using Nat.strongRecOn with
  | ind n ih =>
    rw [ofNat, Nat.toDigits_eq_if (by decide)]
    split
    case isTrue small =>
      simp only [List.head?_cons, ne_eq, Option.some.injEq, Nat.digitChar_eq_zero]
      omega
    case isFalse large =>
      rw [List.head?_append_of_ne_nil _ Nat.toDigits_ne_nil]
      exact ih (n / 10) (by omega) (by omega)

end Decimal

end Text

end CellMachine
