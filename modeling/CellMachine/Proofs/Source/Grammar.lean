import CellMachine.Source.Program
import CellMachine.Proofs.Text.Numeral
import Mathlib.Data.List.Forall2

/-! # The grammar of program texts

A program text spells its cells one after the other, with single commas in between. A cell is a
numeral between blanks, or a blank, a sign and such a numeral. A numeral is a run of decimal digits,
and its value is that of its digits in base ten; a numeral of several digits that starts with a zero
has no digit eight or nine.

`Spells` says this of a whole text. `Parses` says the same of the rest of a text at the point where
a reader has an expectation, which is the form that follows a reader from token to token.
-/

namespace CellMachine.Source

open Text

/-- Texts of tabs, line feeds, carriage returns and spaces. -/
def IsBlank (text : List Char) : Prop :=
  ∀ c ∈ text, c ∈ ['\t', '\n', '\r', ' ']

instance (text : List Char) : Decidable (IsBlank text) :=
  List.decidableBAll _ text

theorem IsBlank.nil : IsBlank [] := by
  decide

/-- Non-empty runs of decimal digits, without eight and nine behind a leading zero. -/
structure IsNumeral (digits : List Char) : Prop where
  nonempty : digits ≠ []
  decimal : ∀ c ∈ digits, c.isDigit
  octal : 1 < digits.length → digits.head? = some '0' → '8' ∉ digits ∧ '9' ∉ digits

def signChar (negative : Bool) : Char :=
  if negative then '-' else '+'

/-- A numeral between blanks that is the given cell when it stands behind a sign. -/
inductive IsMagnitude (negative : Bool) : List Char → Cell → Prop
  | intro {before digits after : List Char} {c : Cell} (blankBefore : IsBlank before)
      (numeral : IsNumeral digits) (blankAfter : IsBlank after)
      (number : c.toInt = Numeral.value negative digits) :
      IsMagnitude negative (before ++ digits ++ after) c

inductive IsCell : List Char → Cell → Prop
  | unsigned {text : List Char} {c : Cell} (magnitude : IsMagnitude false text c) : IsCell text c
  | signed (negative : Bool) {before text : List Char} {c : Cell} (blankBefore : IsBlank before)
      (magnitude : IsMagnitude negative text c) : IsCell (before ++ signChar negative :: text) c

/-- The program texts of a list of cells, with or without a byte order mark in front. -/
def Spells (text : List Char) (cells : List Cell) : Prop :=
  ∃ pieces : List (List Char), pieces ≠ [] ∧ List.Forall₂ IsCell pieces cells ∧
    (text = [','].intercalate pieces ∨ text = '\ufeff' :: [','].intercalate pieces)

/-- Texts that are empty or start with a comma or a blank. -/
def Delimited (text : List Char) : Prop :=
  ∀ c ∈ text.head?, c ∈ [',', '\t', '\n', '\r', ' ']

/-- The sign of a numeral that an expectation admits. -/
def Expectation.sign? : Expectation → Option Bool
  | .program | .cell => some false
  | .numeral negative => some negative
  | .comma | .resumption => none

/-- A text that meets an expectation and spells the given cells. -/
inductive Parses : Expectation → List Char → List Cell → Prop
  | stop {blank : List Char} (isBlank : IsBlank blank) : Parses .comma blank []
  | comma {blank rest : List Char} {cells : List Cell} (isBlank : IsBlank blank)
      (more : Parses .cell rest cells) : Parses .comma (blank ++ ',' :: rest) cells
  | sign {e : Expectation} {negative : Bool} {blank rest : List Char} {cells : List Cell}
      (isBlank : IsBlank blank) (starts : e = .program ∨ e = .cell)
      (more : Parses (.numeral negative) rest cells) :
      Parses e (blank ++ signChar negative :: rest) cells
  | numeral {e : Expectation} {negative : Bool} {blank digits rest : List Char} {c : Cell}
      {cells : List Cell} (isBlank : IsBlank blank) (admitted : e.sign? = some negative)
      (isNumeral : IsNumeral digits) (number : c.toInt = Numeral.value negative digits)
      (more : Parses .comma rest cells) : Parses e (blank ++ digits ++ rest) (c :: cells)

namespace Parses

private theorem blank_append {blank rest : List Char} {cells : List Cell} (isBlank : IsBlank blank)
    (parsed : Parses .comma rest cells) : Parses .comma (blank ++ rest) cells := by
  have join {more : List Char} (isMore : IsBlank more) : IsBlank (blank ++ more) :=
    fun c member => (List.mem_append.1 member).elim (isBlank c) (isMore c)
  cases parsed with
  | stop isMore => exact .stop (join isMore)
  | comma isMore parsed =>
    rw [← List.append_assoc]
    exact .comma (join isMore) parsed
  | sign _ starts => cases starts <;> contradiction
  | numeral _ admitted => cases admitted

/-- What follows a cell is delimited from it. -/
theorem delimited {rest : List Char} {cells : List Cell} (parsed : Parses .comma rest cells) :
    Delimited rest := by
  have first {blank more : List Char} (isBlank : IsBlank blank)
      (others : Delimited more) : Delimited (blank ++ more) := by
    cases blank with
    | nil => exact others
    | cons c blank =>
      intro d head
      cases head
      exact List.mem_cons_of_mem _ (isBlank c (by simp))
  cases parsed with
  | stop isBlank =>
    have none : Delimited [] := by simp [Delimited]
    simpa using first isBlank none
  | comma isBlank _ => exact first isBlank (by simp [Delimited])
  | sign _ starts => cases starts <;> contradiction
  | numeral _ admitted => cases admitted

/-- The characters of the grammar are ASCII characters other than NUL. -/
theorem ascii {e : Expectation} {text : List Char} {cells : List Cell}
    (parsed : Parses e text cells) : ∀ c ∈ text, 0 < c.toNat ∧ c.toNat < 128 := by
  have ofBlank {blank : List Char} (isBlank : IsBlank blank) :
      ∀ c ∈ blank, 0 < c.toNat ∧ c.toNat < 128 := by
    intro c member
    have listed := isBlank c member
    simp only [List.mem_cons, List.not_mem_nil, or_false] at listed
    rcases listed with rfl | rfl | rfl | rfl <;> decide
  induction parsed with
  | stop isBlank => exact ofBlank isBlank
  | comma isBlank _ ih =>
    exact List.forall_mem_append.2 ⟨ofBlank isBlank, List.forall_mem_cons.2 ⟨by decide, ih⟩⟩
  | @sign _ negative _ _ _ isBlank _ _ ih =>
    refine List.forall_mem_append.2 ⟨ofBlank isBlank, List.forall_mem_cons.2 ⟨?_, ih⟩⟩
    cases negative <;> decide
  | numeral isBlank _ isNumeral _ _ ih =>
    refine List.forall_mem_append.2 ⟨List.forall_mem_append.2 ⟨ofBlank isBlank, ?_⟩, ih⟩
    intro c member
    have digit := Char.isDigit_iff_toNat.1 (isNumeral.decimal c member)
    simp only [Char.reduceToNat] at digit
    omega

end Parses

/-- Pieces with commas in between are the first one and the others behind their commas. -/
theorem intercalate_cons (piece : List Char) (pieces : List (List Char)) :
    [','].intercalate (piece :: pieces) = piece ++ pieces.flatMap (',' :: ·) := by
  induction pieces generalizing piece with
  | nil => simp
  | cons next pieces ih => rw [List.intercalate_cons_cons, ih]; simp

theorem IsMagnitude.parses {negative : Bool} {piece rest : List Char} {c : Cell}
    {cells : List Cell} {e : Expectation} (magnitude : IsMagnitude negative piece c)
    (admitted : e.sign? = some negative) (more : Parses .comma rest cells) :
    Parses e (piece ++ rest) (c :: cells) := by
  obtain ⟨blankBefore, numeral, blankAfter, number⟩ := magnitude
  rw [List.append_assoc]
  exact .numeral blankBefore admitted numeral number (more.blank_append blankAfter)

theorem IsCell.parses {piece rest : List Char} {c : Cell} {cells : List Cell} {e : Expectation}
    (cell : IsCell piece c) (starts : e = .program ∨ e = .cell) (more : Parses .comma rest cells) :
    Parses e (piece ++ rest) (c :: cells) := by
  cases cell with
  | unsigned magnitude =>
    refine magnitude.parses ?_ more
    rcases starts with rfl | rfl
    · rfl
    · rfl
  | signed negative blankBefore magnitude =>
    rw [List.append_assoc]
    exact .sign blankBefore starts (magnitude.parses rfl more)

/-- Cells behind their commas may be followed by a blank. -/
theorem parses_comma {pieces : List (List Char)} {after : List Char} {cells : List Cell}
    (spelled : List.Forall₂ IsCell pieces cells) (blankAfter : IsBlank after) :
    Parses .comma (pieces.flatMap (',' :: ·) ++ after) cells := by
  induction spelled with
  | nil => exact .stop blankAfter
  | cons cell _ more =>
    rw [List.flatMap_cons, List.append_assoc]
    exact .comma IsBlank.nil (cell.parses (.inr rfl) more)

/-- The text of a cell, or what is left of it behind its sign, under an expectation. -/
def Expectation.Opens : Expectation → List Char → Cell → Prop
  | .program, piece, c | .cell, piece, c => IsCell piece c
  | .numeral negative, piece, c => IsMagnitude negative piece c
  | .comma, _, _ | .resumption, _, _ => False

theorem IsMagnitude.opens {e : Expectation} {negative : Bool} {piece : List Char} {c : Cell}
    (magnitude : IsMagnitude negative piece c) (admitted : e.sign? = some negative) :
    e.Opens piece c := by
  cases e with
  | program | cell =>
    cases admitted
    exact .unsigned magnitude
  | numeral =>
    cases admitted
    exact magnitude
  | comma | resumption => cases admitted

theorem IsCell.opens {e : Expectation} {piece : List Char} {c : Cell} (cell : IsCell piece c)
    (starts : e = .program ∨ e = .cell) : e.Opens piece c := by
  rcases starts with rfl | rfl
  · exact cell
  · exact cell

/-- A text that meets an expectation is cut at its commas. -/
theorem Parses.pieces {e : Expectation} {text : List Char} {cells : List Cell}
    (parsed : Parses e text cells) :
    (e = .comma ∧ ∃ after pieces, IsBlank after ∧ List.Forall₂ IsCell pieces cells ∧
      text = after ++ pieces.flatMap (',' :: ·)) ∨
    ∃ piece pieces c others, e.Opens piece c ∧ List.Forall₂ IsCell pieces others ∧
      cells = c :: others ∧ text = piece ++ pieces.flatMap (',' :: ·) := by
  induction parsed with
  | @stop blank isBlank => exact .inl ⟨rfl, blank, [], isBlank, .nil, by simp⟩
  | @comma blank rest cells isBlank _ ih =>
    obtain ⟨impossible, -⟩ | ⟨piece, pieces, c, others, cell, spelled, rfl, rfl⟩ := ih
    · cases impossible
    · exact .inl ⟨rfl, blank, piece :: pieces, isBlank, .cons cell spelled, by simp⟩
  | @sign e negative blank rest cells isBlank starts _ ih =>
    obtain ⟨impossible, -⟩ | ⟨piece, pieces, c, others, magnitude, spelled, rfl, rfl⟩ := ih
    · cases impossible
    · have cell : IsCell (blank ++ signChar negative :: piece) c :=
        .signed negative isBlank magnitude
      exact .inr ⟨_, pieces, c, others, cell.opens starts, spelled, rfl, by simp⟩
  | @numeral e negative blank digits rest c cells isBlank admitted isNumeral number _ ih =>
    obtain ⟨-, after, pieces, blankAfter, spelled, rfl⟩ | ⟨_, _, _, _, impossible, -⟩ := ih
    · have magnitude : IsMagnitude negative (blank ++ digits ++ after) c :=
        .intro isBlank isNumeral blankAfter number
      exact .inr ⟨_, pieces, c, cells, magnitude.opens admitted, spelled, rfl, by simp⟩
    · cases impossible

/-- A text without byte order mark spells the cells that a reader finds in it from the start. -/
theorem parses_program_iff {text : List Char} {cells : List Cell} :
    Parses .program text cells ↔ ∃ pieces : List (List Char), pieces ≠ [] ∧
      List.Forall₂ IsCell pieces cells ∧ text = [','].intercalate pieces := by
  constructor
  · intro parsed
    obtain ⟨impossible, -⟩ | ⟨piece, pieces, c, others, cell, spelled, rfl, rfl⟩ := parsed.pieces
    · cases impossible
    · exact ⟨piece :: pieces, by simp, .cons cell spelled, (intercalate_cons piece pieces).symm⟩
  · rintro ⟨pieces, nonempty, spelled, rfl⟩
    cases spelled with
    | nil => exact absurd rfl nonempty
    | cons cell spelled =>
      rw [intercalate_cons]
      exact cell.parses (.inl rfl) (by simpa using parses_comma spelled IsBlank.nil)

end CellMachine.Source
