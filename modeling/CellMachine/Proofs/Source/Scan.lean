import CellMachine.Proofs.Source.Grammar
import Mathlib.Data.List.TakeWhile

/-! # The tokens at the front of a text

A text is blank, which leaves the token of its end, or a symbol stands behind its blank, which is
cut out with what belongs to it. A numeral is cut out whole when a blank, a comma or the end follows
it, and its spelling is faultless exactly when it is a numeral of the grammar.
-/

namespace CellMachine.Source

open Text

theorem isLayout_char {c : Char} :
    Token.isLayout (.char c) ↔ c ∈ ['\t', '\n', '\r', ' '] := by
  simp [Token.isLayout, Symbol.is, or_assoc]

theorem IsBlank.layout {blank : List Char} (isBlank : IsBlank blank) :
    ∀ s ∈ blank.map Symbol.char, Token.isLayout s := by
  intro s member
  obtain ⟨c, inBlank, rfl⟩ := List.mem_map.1 member
  exact isLayout_char.2 (isBlank c inBlank)

private theorem exists_isBlank {symbols : List Symbol} (layout : ∀ s ∈ symbols, Token.isLayout s) :
    ∃ blank, symbols = blank.map .char ∧ IsBlank blank := by
  induction symbols with
  | nil => exact ⟨[], rfl, .nil⟩
  | cons s symbols ih =>
    obtain ⟨blank, rfl, isBlank⟩ := ih fun t member => layout t (by simp [member])
    cases s with
    | bad byte => exact absurd (layout (.bad byte) (by simp)) (by simp [Token.isLayout, Symbol.is])
    | char c =>
      have head := isLayout_char.1 (layout (.char c) (by simp))
      exact ⟨c :: blank, rfl, List.forall_mem_cons.2 ⟨head, isBlank⟩⟩

/-- Every text is blank, or a symbol stands behind its blank. -/
theorem split_layout (text : List Symbol) :
    (∃ blank, IsBlank blank ∧ text = blank.map .char) ∨
    ∃ blank s rest, IsBlank blank ∧ ¬ Token.isLayout s ∧ text = blank.map .char ++ s :: rest := by
  have layout : ∀ s ∈ text.takeWhile Token.isLayout, Token.isLayout s :=
    fun s member => List.mem_takeWhile_imp member
  obtain ⟨blank, front, isBlank⟩ := exists_isBlank layout
  have whole := List.takeWhile_append_dropWhile (p := Token.isLayout) (l := text)
  rw [front] at whole
  cases back : text.dropWhile Token.isLayout with
  | nil => exact .inl ⟨blank, isBlank, by simpa [back] using whole.symm⟩
  | cons s rest =>
    have notLayout : ¬ Token.isLayout s := by
      have stopped := List.head_dropWhile_not Token.isLayout (l := text) (by simp [back])
      simpa [back] using stopped
    exact .inr ⟨blank, s, rest, isBlank, notLayout, by rw [← whole, back]⟩

namespace Token

variable {position : Position} {before : List Fault} {s : Symbol} {rest : List Symbol}

@[simp]
theorem cut_text :
    (cut position before s rest).text = s :: rest.take (tailLength s rest) := by
  rw [cut]
  split
  · rfl
  · rfl

theorem cut_kind :
    (cut position before s rest).kind = if s.isDecimal then .numeral else .mark := by
  rw [cut]
  split
  · rfl
  · rfl

/-- A token is faultless when nothing forbidden stands before or behind it and, for a numeral, its
spelling is faultless. -/
theorem cut_faults_eq_nil : (cut position before s rest).faults = [] ↔
    before = [] ∧ lookAhead position (rest.drop (tailLength s rest)) = [] ∧
      (s.isDecimal → numeralComplaints (s :: rest.take (tailLength s rest)) = []) := by
  rw [cut]
  split
  case isTrue digit => simp [digit]
  case isFalse mark => simp [mark]

theorem scanFrom_blank {blank : List Char} (isBlank : IsBlank blank) :
    scanFrom position before (blank.map .char) =
      [{ kind := .stop, text := [], position := position.advanceAll (blank.map .char)
         faults := before }] := by
  have taken : (blank.map Symbol.char).takeWhile isLayout = blank.map .char :=
    List.takeWhile_eq_self_iff.2 isBlank.layout
  have dropped : (blank.map Symbol.char).dropWhile isLayout = [] :=
    List.dropWhile_eq_nil_iff.2 isBlank.layout
  rw [scanFrom]
  split
  case h_1 => rw [taken]
  case h_2 s rest cut => simp [dropped] at cut

theorem scanFrom_symbol {blank : List Char} (isBlank : IsBlank blank)
    (notLayout : ¬ isLayout s) :
    scanFrom position before (blank.map .char ++ s :: rest) =
      let start := position.advanceAll (blank.map .char)
      cut start (if blank.isEmpty then before else before ++ lookAhead start (s :: rest)) s rest ::
        scanFrom (start.advanceAll (s :: rest.take (tailLength s rest))) []
          (rest.drop (tailLength s rest)) := by
  have taken : (blank.map Symbol.char ++ s :: rest).takeWhile isLayout = blank.map .char := by
    rw [List.takeWhile_append_of_pos isBlank.layout, List.takeWhile_cons_of_neg notLayout,
      List.append_nil]
  have dropped : (blank.map Symbol.char ++ s :: rest).dropWhile isLayout = s :: rest := by
    rw [List.dropWhile_append_of_pos isBlank.layout, List.dropWhile_cons_of_neg notLayout]
  rw [scanFrom]
  split
  case h_1 cut => simp [dropped] at cut
  case h_2 first others same =>
    rw [dropped] at same
    cases same
    simp only [taken, List.isEmpty_map, cut_text]

/-- Texts by their first tokens: a text is blank, or a symbol stands behind its blank and a shorter
text behind what belongs to that symbol. -/
theorem text_induction {motive : List Symbol → Prop}
    (blank : ∀ blank : List Char, IsBlank blank → motive (blank.map .char))
    (symbol : ∀ (blank : List Char) (s : Symbol) (rest : List Symbol), IsBlank blank →
      ¬ isLayout s → motive (rest.drop (tailLength s rest)) →
      motive (blank.map .char ++ s :: rest)) (text : List Symbol) : motive text := by
  induction size : text.length using Nat.strongRecOn generalizing text with
  | ind n ih =>
    obtain ⟨front, isBlank, rfl⟩ | ⟨front, s, rest, isBlank, notLayout, rfl⟩ := split_layout text
    · exact blank front isBlank
    · have shorter : (rest.drop (tailLength s rest)).length < n := by
        simp only [← size, List.length_append, List.length_cons, List.length_drop]
        omega
      exact symbol front s rest isBlank notLayout (ih _ shorter _ rfl)

private theorem numeralParts_of_zero {d : Char} {digits : List Char} (digit : d.isDigit) :
    numeralParts (('0' :: d :: digits).map .char) = (.octal, true, (d :: digits).map .char) := by
  simp [numeralParts, Symbol.ofLetter?_of_isDigit digit]

private theorem numeralParts_of_ne_zero {c : Char} {digits : List Char} (notZero : c ≠ '0') :
    numeralParts ((c :: digits).map .char) = (.decimal, false, (c :: digits).map .char) := by
  rw [numeralParts]
  · simp [notZero]
  · simp [notZero]

/-- Digits are faultless when each of them is one of the base. -/
theorem numeralComplaints_eq_nil_of_parts {text : List Symbol} {radix : Radix} {hasZero : Bool}
    {digits : List Char} (parts : numeralParts text = (radix, hasZero, digits.map .char))
    (decimal : ∀ c ∈ digits, c.isDigit) (present : hasZero ∨ digits ≠ [])
    (separated : Numeral.wellSeparated text) : numeralComplaints text = [] ↔
      ∀ c ∈ digits, (Symbol.char c).digitIn? radix ≠ none := by
  have plain (c : Char) (member : c ∈ digits) : (Symbol.char c).isSeparator = false :=
    Symbol.isSeparator_of_isDigit (decimal c member)
  have counted : hasZero || (digits.map Symbol.char).any (!·.isSeparator) := by
    rw [Bool.or_eq_true]
    refine present.imp_right fun nonempty => ?_
    obtain ⟨c, member⟩ := List.exists_mem_of_ne_nil digits nonempty
    exact List.any_eq_true.2 ⟨.char c, List.mem_map_of_mem member, by simp [plain c member]⟩
  simp only [numeralComplaints, parts, counted, separated, if_true, List.nil_append,
    List.append_nil]
  split
  case h_1 digit found =>
    obtain ⟨c, member, rfl⟩ := List.mem_map.1 (List.mem_of_find?_eq_some found)
    have large := List.find?_some found
    simp only [plain c member, Bool.not_false, Bool.true_and, Option.isNone_iff_eq_none] at large
    simp only [List.cons_ne_nil, false_iff]
    exact fun small => small c member large
  case h_2 small =>
    simp only [true_iff]
    intro c member large
    refine List.find?_eq_none.1 small (.char c) (List.mem_map_of_mem member) ?_
    simp [plain c member, large]

/-- The spelling of a run of digits is faultless exactly when the run is a numeral. -/
theorem numeralComplaints_eq_nil {digits : List Char} (nonempty : digits ≠ [])
    (decimal : ∀ c ∈ digits, c.isDigit) :
    numeralComplaints (digits.map .char) = [] ↔ IsNumeral digits := by
  have separated := Numeral.wellSeparated_of_isDigit decimal
  obtain ⟨c, digits, rfl⟩ := List.exists_cons_of_ne_nil nonempty
  obtain rfl | notZero := eq_or_ne c '0'
  · cases digits with
    | nil => exact ⟨fun _ => ⟨nonempty, decimal, by simp⟩, fun _ => by decide⟩
    | cons d digits =>
      have others : ∀ c ∈ d :: digits, c.isDigit := fun c member => decimal c (by simp [member])
      rw [numeralComplaints_eq_nil_of_parts (numeralParts_of_zero (others d (by simp))) others
        (.inl rfl) separated]
      constructor
      · intro small
        have absent {c : Char} (notZero : c ≠ '0')
            (large : (Symbol.char c).digitIn? .octal = none) : c ∉ '0' :: d :: digits :=
          fun member => small c (List.mem_of_ne_of_mem notZero member) large
        exact ⟨nonempty, decimal, fun _ _ => ⟨absent (by decide) rfl, absent (by decide) rfl⟩⟩
      · intro numeral c member large
        obtain ⟨eight, nine⟩ := numeral.octal (by simp) rfl
        rcases (Symbol.digitIn?_octal_eq_none (others c member)).1 large with rfl | rfl
        · exact eight (List.mem_cons_of_mem _ member)
        · exact nine (List.mem_cons_of_mem _ member)
  · rw [numeralComplaints_eq_nil_of_parts (numeralParts_of_ne_zero notZero) decimal
      (.inr nonempty) separated]
    constructor
    · intro _
      exact ⟨nonempty, decimal, by simp [notZero]⟩
    · intro _ c member
      obtain ⟨d, found⟩ := Option.isSome_iff_exists.1
        (Symbol.isDecimal_iff.2 ⟨c, rfl, decimal c member⟩)
      simp [found]

theorem lookAhead_eq_nil {text : List Char} (visible : ∀ c ∈ text, 0 < c.toNat) :
    lookAhead position (text.map .char) = [] := by
  cases text with
  | nil => rfl
  | cons c text =>
    have nonzero := visible c (by simp)
    simp [lookAhead, forbidden?, Nat.ne_of_gt nonzero]

theorem tailLength_of_mark (mark : ¬ s.isDecimal) : tailLength s rest = 0 := by
  have notZero : ¬ s.is '0' := by
    intro zero
    cases s with
    | bad => cases zero
    | char c =>
      rw [beq_iff_eq.1 zero] at mark
      exact mark rfl
  rw [tailLength.eq_def, if_neg notZero, if_neg mark]

/-- Digits that are delimited from the rest are those that belong to a numeral. -/
theorem takeWhile_continues {radix : Radix} {digits rest : List Char}
    (notHexadecimal : radix ≠ .hexadecimal) (decimal : ∀ d ∈ digits, d.isDigit)
    (delimited : Delimited rest) :
    ((digits ++ rest).map Symbol.char).takeWhile (continues radix) = digits.map .char := by
  have belong : ∀ s ∈ digits.map Symbol.char, continues radix s := by
    intro s member
    obtain ⟨d, inDigits, rfl⟩ := List.mem_map.1 member
    have digit := Symbol.isDecimal_iff.2 ⟨d, rfl, decimal d inDigits⟩
    simp [continues, notHexadecimal, digit]
  rw [List.map_append, List.takeWhile_append_of_pos belong]
  cases rest with
  | nil => simp
  | cons d rest =>
    have stops : ¬ continues radix (.char d) := by
      have listed := delimited d rfl
      simp only [List.mem_cons, List.not_mem_nil, or_false] at listed
      rw [continues, if_neg notHexadecimal]
      rcases listed with rfl | rfl | rfl | rfl | rfl <;> decide
    rw [List.map_cons, List.takeWhile_cons_of_neg stops, List.append_nil]

/-- No base is announced behind a zero there. -/
theorem ofLetter?_eq_none {digits rest : List Char} (decimal : ∀ d ∈ digits, d.isDigit)
    (delimited : Delimited rest) :
    ∀ d ∈ (digits ++ rest).head?, Radix.ofLetter? (.char d) = none := by
  intro d head
  cases digits with
  | nil =>
    have listed := delimited d head
    simp only [List.mem_cons, List.not_mem_nil, or_false] at listed
    rcases listed with rfl | rfl | rfl | rfl | rfl <;> rfl
  | cons c digits =>
    cases head
    exact Symbol.ofLetter?_of_isDigit (decimal d (by simp))

/-- A numeral that is delimited from the rest is cut out whole. -/
theorem tailLength_of_digits {c : Char} {digits rest : List Char} (digit : c.isDigit)
    (decimal : ∀ d ∈ digits, d.isDigit)
    (delimited : Delimited rest) :
    tailLength (.char c) ((digits ++ rest).map .char) = digits.length := by
  have whole {radix : Radix} (notHexadecimal : radix ≠ .hexadecimal) :
      (((digits ++ rest).map Symbol.char).takeWhile (continues radix)).length = digits.length := by
    rw [takeWhile_continues notHexadecimal decimal delimited, List.length_map]
  rw [tailLength.eq_def]
  split
  case isTrue zero =>
    split
    case h_1 none => simp_all
    case h_2 letter others spelled =>
      obtain ⟨d, others, text, rfl, rfl⟩ := List.map_eq_cons_iff.1 spelled
      have noBase := ofLetter?_eq_none decimal delimited d (by simp [text])
      simp only [noBase]
      exact whole (by decide)
  case isFalse =>
    rw [if_pos (Symbol.isDecimal_iff.2 ⟨c, rfl, digit⟩)]
    exact whole (by decide)

end Token

end CellMachine.Source
