import CellMachine.Console.Prompt
import CellMachine.Proofs.Text.Numeral
import Mathlib.Data.List.TakeWhile

/-! # Asking loses no value and invents none

A text is cut into lines at its line feeds, and a line holds a number if it is a decimal between
blanks. Whoever is asked again and again answers with the numbers of these lines in their order.
Each question reads the lines up to the first one that holds a number, with a prompt for each line
and a complaint about each of those before it; when no such line is left, the question fails, and so
does every question after it.
-/

namespace CellMachine

open Text

/-! ## Blanks around a line -/

namespace Text.Symbol

theorem is_iff {s : Symbol} {c : Char} : s.is c ↔ s = .char c := by
  cases s <;> simp [is]

/-- A line is what is left of it between the blanks at its two ends. -/
theorem exists_trim (line : List Symbol) : ∃ before after, line = before ++ trim line ++ after ∧
    (∀ s ∈ before, s.isBlank) ∧ ∀ s ∈ after, s.isBlank := by
  let inner := line.dropWhile isBlank
  refine ⟨line.takeWhile isBlank, (inner.reverse.takeWhile isBlank).reverse, ?_, ?_, ?_⟩
  · have split : trim line ++ (inner.reverse.takeWhile isBlank).reverse = inner := by
      rw [trim, ← List.reverse_append, List.takeWhile_append_dropWhile, List.reverse_reverse]
    rw [List.append_assoc, split, List.takeWhile_append_dropWhile]
  · exact fun s member => List.mem_takeWhile_imp member
  · exact fun s member => List.mem_takeWhile_imp (List.mem_reverse.mp member)

theorem trim_eq_nil_iff {line : List Symbol} : trim line = [] ↔ ∀ s ∈ line, s.isBlank := by
  constructor
  · intro empty
    obtain ⟨before, after, split, blankBefore, blankAfter⟩ := exists_trim line
    rw [empty, List.append_nil] at split
    rw [split]
    exact fun s member => (List.mem_append.mp member).elim (blankBefore s) (blankAfter s)
  · intro blank
    rw [trim, List.dropWhile_eq_nil_iff.mpr blank]
    rfl

/-- Blanks are dropped up to the first symbol that is not one. -/
theorem dropWhile_blank_append {blank inner rest : List Symbol} (isBlank : ∀ s ∈ blank, s.isBlank)
    (visible : ∀ s ∈ inner, s.isBlank = false) (nonempty : inner ≠ []) :
    (blank ++ (inner ++ rest)).dropWhile Symbol.isBlank = inner ++ rest := by
  obtain ⟨s, inner, rfl⟩ := List.exists_cons_of_ne_nil nonempty
  rw [List.dropWhile_append_of_pos isBlank, List.cons_append, List.dropWhile_cons_of_neg]
  simp [visible s List.mem_cons_self]

/-- What stands between blanks and holds none is left of a line. -/
theorem trim_append {before inner after : List Symbol} (blankBefore : ∀ s ∈ before, s.isBlank)
    (blankAfter : ∀ s ∈ after, s.isBlank) (visible : ∀ s ∈ inner, s.isBlank = false)
    (nonempty : inner ≠ []) : trim (before ++ inner ++ after) = inner := by
  have mirrored : (after.reverse ++ (inner.reverse ++ [])).dropWhile isBlank =
      inner.reverse ++ [] :=
    dropWhile_blank_append (by simpa using blankAfter) (by simpa using visible)
      (by simpa using nonempty)
  rw [trim, List.append_assoc, dropWhile_blank_append blankBefore visible nonempty,
    List.reverse_append]
  simpa using congrArg List.reverse mirrored

private theorem isBlank_of_isDigit {c : Char} (digit : c.isDigit) : (char c).isBlank = false := by
  obtain ⟨low, high⟩ := Char.isDigit_iff_toNat.1 digit
  simp only [Char.reduceToNat] at low high
  simp only [isBlank, Text.isBlank, Bool.or_eq_false_iff, Bool.and_eq_false_iff,
    decide_eq_false_iff_not, beq_eq_false_iff_ne]
  omega

end Text.Symbol

namespace Text.Numeral

theorem IsDecimal.ne_nil {text : List Symbol} {c : Cell} (spelled : IsDecimal text c) :
    text ≠ [] := by
  cases spelled with
  | unsigned nonempty => simpa using nonempty
  | signed => exact List.cons_ne_nil _ _

/-- No symbol of a decimal is blank. -/
theorem IsDecimal.visible {text : List Symbol} {c : Cell} (spelled : IsDecimal text c) :
    ∀ s ∈ text, s.isBlank = false := by
  have digits {digits : List Char} (decimal : ∀ d ∈ digits, d.isDigit) :
      ∀ s ∈ digits.map Symbol.char, s.isBlank = false := by
    intro s member
    obtain ⟨d, inside, rfl⟩ := List.mem_map.mp member
    exact Symbol.isBlank_of_isDigit (decimal d inside)
  cases spelled with
  | unsigned _ decimal => exact digits decimal
  | signed negative _ decimal =>
    refine List.forall_mem_cons.mpr ⟨?_, digits decimal⟩
    cases negative <;> decide

end Text.Numeral

namespace Console

/-! ## Lines and their numbers -/

/-- The number in a line: a decimal of a cell between blanks. -/
def Holds (line : List Symbol) (c : Cell) : Prop :=
  ∃ before inner after, line = before ++ inner ++ after ∧ (∀ s ∈ before, s.isBlank) ∧
    Numeral.IsDecimal inner c ∧ ∀ s ∈ after, s.isBlank

/-- The number that is read from a line, if there is one. -/
def valueOf? (line : List Symbol) : Option Cell :=
  (Numeral.decimal (Symbol.trim line)).toOption

variable {line : List Symbol} {c : Cell}

private theorem valueOf?_eq_some :
    valueOf? line = some c ↔ Numeral.decimal (Symbol.trim line) = .ok c := by
  rw [valueOf?]
  cases Numeral.decimal (Symbol.trim line) <;> simp [Except.toOption]

private theorem valueOf?_eq_none :
    valueOf? line = none ↔ ∃ problem, Numeral.decimal (Symbol.trim line) = .error problem := by
  rw [valueOf?]
  cases Numeral.decimal (Symbol.trim line) <;> simp [Except.toOption]

/-- A number is read exactly from the lines that hold it. -/
theorem valueOf?_eq_some_iff : valueOf? line = some c ↔ Holds line c := by
  rw [valueOf?_eq_some, Numeral.decimal_eq_ok_iff]
  constructor
  · intro spelled
    obtain ⟨before, after, split, blankBefore, blankAfter⟩ := Symbol.exists_trim line
    exact ⟨before, _, after, split, blankBefore, spelled, blankAfter⟩
  · rintro ⟨before, inner, after, rfl, blankBefore, spelled, blankAfter⟩
    rwa [Symbol.trim_append blankBefore blankAfter spelled.visible spelled.ne_nil]

namespace Lines

/-- A text cut at all of its line feeds. -/
structure Splits (l : Lines) (text : List Symbol) : Prop where
  text_eq : text = l.terminated.flatMap (· ++ [.char '\n']) ++ l.rest
  terminated : ∀ line ∈ l.terminated, .char '\n' ∉ line
  rest : .char '\n' ∉ l.rest

private theorem splits_cons {l : Lines} {text : List Symbol} (splits : l.Splits text) (s : Symbol) :
    (l.cons s).Splits (s :: text) := by
  obtain ⟨terminated, rest⟩ := l
  obtain ⟨rfl, noneIn, noneBehind⟩ := splits
  unfold cons
  split
  · next ends =>
    obtain rfl := Symbol.is_iff.mp ends
    exact ⟨rfl, List.forall_mem_cons.mpr ⟨nofun, noneIn⟩, noneBehind⟩
  · next goesOn =>
    have other : .char '\n' ≠ s := fun same => goesOn (Symbol.is_iff.mpr same.symm)
    cases terminated with
    | nil => exact ⟨rfl, nofun, List.not_mem_cons_of_ne_of_not_mem other noneBehind⟩
    | cons line more =>
      obtain ⟨first, others⟩ := List.forall_mem_cons.mp noneIn
      have stays := List.not_mem_cons_of_ne_of_not_mem other first
      exact ⟨rfl, List.forall_mem_cons.mpr ⟨stays, others⟩, noneBehind⟩

/-- The lines of a text are cut at all of its line feeds. -/
theorem splits_ofText (text : List Symbol) : (ofText text).Splits text := by
  induction text with
  | nil => exact ⟨rfl, nofun, nofun⟩
  | cons s text ih => exact splits_cons ih s

end Lines

/-! ## One question -/

def exhausted : Failure :=
  Cause.inputExhausted.within .endOfInput

/-- What is shown for lines without a number: a prompt for each of them, and a complaint. -/
def complaints (lines : List (List Symbol)) : String :=
  String.join <| lines.map fun line =>
    "input: " ++ "invalid input " ++ Quoted.symbols (Symbol.trim line) ++ "\n"

/-- What one question does: it reads lines without a number and complains about them, and then reads
one more line, or the rest of the text when there is none. -/
inductive Reads : Lines → Answer → Prop
  | line {bad more : List (List Symbol)} {line rest : List Symbol} {value : Cell}
      (without : ∀ b ∈ bad, valueOf? b = none) (number : valueOf? line = some value) :
      Reads ⟨bad ++ line :: more, rest⟩ ⟨.ok value, complaints bad ++ "input: ", ⟨more, rest⟩⟩
  | rest {bad : List (List Symbol)} {rest : List Symbol} {value : Cell}
      (without : ∀ b ∈ bad, valueOf? b = none) (number : valueOf? rest = some value) :
      Reads ⟨bad, rest⟩ ⟨.ok value, complaints bad ++ "input: ", {}⟩
  | blank {bad : List (List Symbol)} {rest : List Symbol}
      (without : ∀ b ∈ bad, valueOf? b = none) (blank : ∀ s ∈ rest, s.isBlank) :
      Reads ⟨bad, rest⟩ ⟨.error exhausted, complaints bad ++ "input: ", {}⟩
  | malformed {bad : List (List Symbol)} {rest : List Symbol} {problem : Numeral.Problem}
      (without : ∀ b ∈ bad, valueOf? b = none) (visible : ¬ ∀ s ∈ rest, s.isBlank)
      (malformed : Numeral.decimal (Symbol.trim rest) = .error problem) :
      Reads ⟨bad, rest⟩
        ⟨.error ((Cause.notANumber (Symbol.trim rest) problem).within
          (.inputLine (Symbol.trim rest))), complaints bad ++ "input: ", {}⟩

private theorem complaints_cons (line : List Symbol) (lines : List (List Symbol)) (shown : String) :
    complaints (line :: lines) ++ shown =
      promptText ++ complaintText (Symbol.trim line) ++ (complaints lines ++ shown) := by
  simp only [complaints, List.map_cons, String.join_cons, promptText, complaintText,
    String.append_assoc]

/-- A line without a number is passed over with a complaint. -/
theorem Reads.cons {l : Lines} {a : Answer} (reads : Reads l a) {line : List Symbol}
    (without : valueOf? line = none) :
    Reads ⟨line :: l.terminated, l.rest⟩
      { a with shown := promptText ++ complaintText (Symbol.trim line) ++ a.shown } := by
  cases reads with
  | @line bad more _ _ _ others number =>
    rw [← complaints_cons]
    exact .line (List.forall_mem_cons.mpr ⟨without, others⟩) number
  | rest others number =>
    rw [← complaints_cons]
    exact .rest (List.forall_mem_cons.mpr ⟨without, others⟩) number
  | blank others blank =>
    rw [← complaints_cons]
    exact .blank (List.forall_mem_cons.mpr ⟨without, others⟩) blank
  | malformed others visible malformed =>
    rw [← complaints_cons]
    exact .malformed (List.forall_mem_cons.mpr ⟨without, others⟩) visible malformed

private theorem without_nil : ∀ b ∈ ([] : List (List Symbol)), valueOf? b = none :=
  nofun

private theorem reads_askRest (rest : List Symbol) : Reads ⟨[], rest⟩ (askRest rest) := by
  unfold askRest
  dsimp only
  split
  · next empty =>
    have blank := Symbol.trim_eq_nil_iff.mp (List.isEmpty_iff.mp empty)
    exact .blank without_nil blank
  · next nonempty =>
    have visible : ¬ ∀ s ∈ rest, s.isBlank := fun blank =>
      nonempty (List.isEmpty_iff.mpr (Symbol.trim_eq_nil_iff.mpr blank))
    split
    · next number => exact .rest without_nil (valueOf?_eq_some.mpr number)
    · next malformed => exact .malformed without_nil visible malformed

/-- One question reads lines up to the first one that holds a number. -/
theorem reads_ask (l : Lines) : Reads l (ask l) := by
  obtain ⟨terminated, rest⟩ := l
  unfold ask
  induction terminated with
  | nil => exact reads_askRest rest
  | cons line more ih =>
    dsimp only at ih ⊢
    rw [askLines]
    dsimp only
    split
    · next number => exact .line without_nil (valueOf?_eq_some.mpr number)
    · next problem malformed => exact ih.cons (valueOf?_eq_none.mpr ⟨problem, malformed⟩)

/-! ## Question after question -/

/-- How the first question fails for which no number is left, by the unterminated rest of the text:
there is nothing left to read if it is blank or has been taken as a number before. -/
inductive EndsWith : List Symbol → Failure → Prop
  | taken {rest : List Symbol} {value : Cell} (number : valueOf? rest = some value) :
      EndsWith rest exhausted
  | blank {rest : List Symbol} (blank : ∀ s ∈ rest, s.isBlank) : EndsWith rest exhausted
  | malformed {rest : List Symbol} {problem : Numeral.Problem} (visible : ¬ ∀ s ∈ rest, s.isBlank)
      (malformed : Numeral.decimal (Symbol.trim rest) = .error problem) :
      EndsWith rest ((Cause.notANumber (Symbol.trim rest) problem).within
        (.inputLine (Symbol.trim rest)))

namespace Lines

/-- The numbers of the lines in their order, the unterminated rest being the last line. -/
def values (l : Lines) : List Cell :=
  (l.terminated ++ [l.rest]).filterMap valueOf?

def left : Nat → Lines → Lines
  | 0, l => l
  | n + 1, l => left n (ask l).lines

/-- The answer to a question, the questions being numbered from zero. -/
def answer (l : Lines) (n : Nat) : Answer :=
  ask (l.left n)

private theorem left_succ (l : Lines) (n : Nat) : l.left (n + 1) = (l.answer n).lines := by
  induction n generalizing l with
  | zero => rfl
  | succ n ih => exact ih (ask l).lines

private theorem values_of_without {bad more : List (List Symbol)} {rest : List Symbol}
    (without : ∀ b ∈ bad, valueOf? b = none) :
    values ⟨bad ++ more, rest⟩ = values ⟨more, rest⟩ := by
  rw [values, List.append_assoc, List.filterMap_append, List.filterMap_eq_nil_iff.mpr without]
  rfl

private theorem values_of_line {bad more : List (List Symbol)} {line rest : List Symbol}
    {value : Cell} (without : ∀ b ∈ bad, valueOf? b = none) (number : valueOf? line = some value) :
    values ⟨bad ++ line :: more, rest⟩ = value :: values ⟨more, rest⟩ := by
  rw [values_of_without without, values, List.cons_append, List.filterMap_cons_some number]
  rfl

private theorem values_of_rest {bad : List (List Symbol)} {rest : List Symbol}
    (without : ∀ b ∈ bad, valueOf? b = none) :
    values ⟨bad, rest⟩ = (valueOf? rest).toList := by
  rw [values, List.filterMap_append, List.filterMap_eq_nil_iff.mpr without]
  cases found : valueOf? rest <;> simp [found]

/-- What a question comes to: the number of its line, the failure with which the numbers end, or
the failure when there is nothing left to read. -/
inductive Gets (l : Lines) (n : Nat) : Except Failure Cell → Prop
  | value {c : Cell} (found : l.values[n]? = some c) : Gets l n (.ok c)
  | ending {f : Failure} (due : n = l.values.length) (ends : EndsWith l.rest f) :
      Gets l n (.error f)
  | later (past : l.values.length < n) : Gets l n (.error exhausted)

private theorem valueOf?_of_blank {rest : List Symbol} (blank : ∀ s ∈ rest, s.isBlank) :
    valueOf? rest = none := by
  rw [valueOf?, Symbol.trim_eq_nil_iff.mpr blank]
  rfl

/-- The first question comes to what it should. -/
theorem gets_ask (l : Lines) : l.Gets 0 (ask l).value := by
  have reads := reads_ask l
  generalize ask l = a at reads
  cases reads with
  | line without number =>
    exact .value (by rw [values_of_line without number, List.getElem?_cons_zero])
  | rest without number =>
    exact .value (by rw [values_of_rest without, number]; rfl)
  | blank without blank =>
    exact .ending (by rw [values_of_rest without, valueOf?_of_blank blank]; rfl) (.blank blank)
  | malformed without visible malformed =>
    refine .ending ?_ (.malformed visible malformed)
    rw [values_of_rest without, valueOf?_eq_none.mpr ⟨_, malformed⟩]
    rfl

/-- When all has been read, every question comes to nothing. -/
theorem Gets.of_empty {n : Nat} {result : Except Failure Cell}
    (gets : ({} : Lines).Gets n result) : result = .error exhausted := by
  have none : valueOf? [] = none := rfl
  cases gets with
  | value found => cases found
  | ending due ends =>
    cases ends with
    | taken number => cases none.symm.trans number
    | blank => rfl
    | malformed visible => exact (visible nofun).elim
  | later => rfl

/-- What a question after the first one comes to, by the lines that the first one has left. -/
theorem Gets.of_ask {l : Lines} {n : Nat} {result : Except Failure Cell}
    (gets : (ask l).lines.Gets n result) : l.Gets (n + 1) result := by
  have reads := reads_ask l
  generalize ask l = a at reads gets
  cases reads with
  | @line bad more line rest value without number =>
    have values : Lines.values ⟨bad ++ line :: more, rest⟩ = value :: Lines.values ⟨more, rest⟩ :=
      values_of_line without number
    cases gets with
    | value found => exact .value (by rw [values, List.getElem?_cons_succ, found])
    | ending due ends => exact .ending (by rw [values, List.length_cons, due]) ends
    | later past => exact .later (by rw [values]; exact Nat.succ_lt_succ past)
  | @rest bad rest value without number =>
    have values : Lines.values ⟨bad, rest⟩ = [value] := by
      rw [values_of_rest without, number, Option.toList_some]
    rw [gets.of_empty]
    cases n with
    | zero => exact .ending (by rw [values, List.length_singleton]) (.taken number)
    | succ n => exact .later (by rw [values, List.length_singleton]; omega)
  | blank without blank =>
    rw [gets.of_empty]
    exact .later (by rw [values_of_rest without, valueOf?_of_blank blank]; exact n.succ_pos)
  | malformed without visible malformed =>
    rw [gets.of_empty]
    refine .later ?_
    rw [values_of_rest without, valueOf?_eq_none.mpr ⟨_, malformed⟩]
    exact n.succ_pos

private theorem Gets.eq_ok {l : Lines} {n : Nat} {result : Except Failure Cell} {c : Cell}
    (gets : l.Gets n result) (found : l.values[n]? = some c) : result = .ok c := by
  obtain ⟨inside, -⟩ := List.getElem?_eq_some_iff.mp found
  cases gets with
  | value own => rw [Option.some.inj (own.symm.trans found)]
  | ending due => exact (Nat.ne_of_lt inside due).elim
  | later past => exact (Nat.lt_asymm inside past).elim

/-- The question behind those that the numbers answer comes to the failure with which they end. -/
theorem Gets.endsWith {l : Lines} {result : Except Failure Cell}
    (gets : l.Gets l.values.length result) : ∃ f, result = .error f ∧ EndsWith l.rest f := by
  cases gets with
  | value found =>
    obtain ⟨inside, -⟩ := List.getElem?_eq_some_iff.mp found
    exact (Nat.lt_irrefl _ inside).elim
  | ending _ ends => exact ⟨_, rfl, ends⟩
  | later past => exact (Nat.lt_irrefl _ past).elim

private theorem Gets.eq_exhausted {l : Lines} {n : Nat} {result : Except Failure Cell}
    (gets : l.Gets n result) (past : l.values.length < n) : result = .error exhausted := by
  cases gets with
  | value found =>
    obtain ⟨inside, -⟩ := List.getElem?_eq_some_iff.mp found
    exact (Nat.lt_asymm inside past).elim
  | ending due => exact (Nat.ne_of_gt past due).elim
  | later => rfl

/-- Question after question, the numbers of the lines are given, and then failures. -/
theorem gets_answer (l : Lines) (n : Nat) : l.Gets n (l.answer n).value := by
  induction n generalizing l with
  | zero => exact gets_ask l
  | succ n ih => exact .of_ask (ih (ask l).lines)

end Lines

/-- Asking neither loses nor invents a number. A text is cut at its line feeds, and its numbers are
those of the lines that are a decimal of a cell between blanks. The questions are answered with
these numbers in their order: each of them reads lines up to the first one that holds a number, with
a prompt for each line and a complaint about each of those before it. The first question for which
there is no number left reads all that is left, and fails by what stands behind the last line feed;
every question after that fails because there is nothing left to read. -/
theorem answers_faithful (text : List Symbol) :
    let lines := Lines.ofText text
    lines.Splits text ∧ (∀ line c, valueOf? line = some c ↔ Holds line c) ∧
      (∀ n, Reads (lines.left n) (lines.answer n) ∧ lines.left (n + 1) = (lines.answer n).lines) ∧
      (∀ n c, lines.values[n]? = some c → (lines.answer n).value = .ok c) ∧
      (∃ f, (lines.answer lines.values.length).value = .error f ∧ EndsWith lines.rest f) ∧
      ∀ n, lines.values.length < n → (lines.answer n).value = .error exhausted := by
  intro lines
  have gets (n : Nat) := lines.gets_answer n
  refine ⟨Lines.splits_ofText text, fun _ _ => valueOf?_eq_some_iff,
    fun n => ⟨reads_ask _, lines.left_succ n⟩, ?_, ?_, ?_⟩
  · intro n c found
    exact (gets n).eq_ok found
  · exact (gets lines.values.length).endsWith
  · intro n past
    exact (gets n).eq_exhausted past

/-- A number, a blank line, a line that is no number, a number with a sign, and a rest that is none:
two questions are answered, and the others fail. -/
theorem answers_faithful_mixed :
    let lines := Lines.ofText (" 7\n\nx\n+8\t\n-9 z".toList.map .char)
    (lines.answer 0).value = .ok 7 ∧ (lines.answer 0).shown = "input: " ∧
      (lines.answer 1).value = .ok 8 ∧ (lines.answer 1).shown =
        "input: invalid input \"\"\ninput: invalid input \"x\"\ninput: " ∧
      (∃ f, (lines.answer 2).value = .error f ∧ EndsWith ("-9 z".toList.map .char) f ∧
        f.cause ≠ .inputExhausted) ∧
      (lines.answer 3).value = .error exhausted := by
  intro lines
  have values : lines.values = [7, 8] := by decide
  have rest : lines.rest = "-9 z".toList.map .char := by decide
  obtain ⟨-, -, -, found, ⟨f, failed, ends⟩, later⟩ :=
    answers_faithful (" 7\n\nx\n+8\t\n-9 z".toList.map .char)
  change EndsWith lines.rest f at ends
  change (lines.answer lines.values.length).value = .error f at failed
  rw [rest] at ends
  rw [values] at failed
  refine ⟨found 0 7 (by decide), by decide, found 1 8 (by decide), by decide,
    ⟨f, failed, ends, ?_⟩, later 3 (by decide)⟩
  cases ends with
  | taken number =>
    have none : valueOf? ("-9 z".toList.map .char) = none := by decide
    cases none.symm.trans number
  | blank blank => exact absurd blank (by decide)
  | malformed => nofun

end Console

end CellMachine
