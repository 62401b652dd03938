import CellMachine.Proofs.Source.Grammar

/-! # Reading without faults

A reader either takes a token in one of four ways (the end of the text, a comma, a sign or a
numeral, each where it is expected) or reports a fault, and what has been reported stays reported.
A text is thus read without a fault exactly when every token is free of faults and taken.
-/

namespace CellMachine.Source

open Text

/-- The tokens that meet an expectation, with what is expected next and the cells that they
complete. -/
inductive Expectation.Takes : Expectation → Token → Expectation → List Cell → Prop
  | stop {t : Token} (kind : t.kind = .stop) : Takes .comma t .comma []
  | comma {t : Token} (mark : t.isMark ',') : Takes .comma t .cell []
  | sign {e : Expectation} {t : Token} {negative : Bool} (starts : e = .program ∨ e = .cell)
      (mark : t.isMark (signChar negative)) : Takes e t (.numeral negative) []
  | numeral {e : Expectation} {t : Token} {negative : Bool} {c : Cell}
      (admitted : e.sign? = some negative) (kind : t.kind = .numeral)
      (number : Numeral.decimal (if negative then .char '-' :: t.text else t.text) = .ok c) :
      Takes e t .comma [c]

namespace Reading

/-- The reader that has read the given cells and reported nothing. -/
def clean (e : Expectation) (cells : List Cell) : Reading :=
  { expected := e, cells := cells.toArray }

/-- What became of a token: it was taken, or a fault was reported. -/
def Answers (r : Reading) (t : Token) (after : Reading) : Prop :=
  (∃ e cells, r.expected.Takes t e cells ∧
    after = { r with expected := e, cells := r.cells ++ cells.toArray }) ∨
  ∃ fault, after.faults = r.faults.push fault

private theorem answers_numeral {r : Reading} {negative : Bool} (t : Token)
    (admitted : r.expected.sign? = some negative) : r.Answers t (r.numeral negative t) := by
  unfold numeral
  split
  case isTrue kind =>
    simp only
    split
    case h_1 c number =>
      refine .inl ⟨.comma, [c], .numeral admitted kind number, ?_⟩
      simp
    case h_2 => exact .inr ⟨_, rfl⟩
  case isFalse => exact .inr ⟨_, rfl⟩

private theorem answers_cell {r : Reading} (t : Token)
    (starts : r.expected = .program ∨ r.expected = .cell) : r.Answers t (r.cell t) := by
  unfold cell
  split
  case isTrue mark => exact .inl ⟨.numeral true, [], .sign starts mark, by simp⟩
  split
  case isTrue mark => exact .inl ⟨.numeral false, [], .sign starts mark, by simp⟩
  case isFalse =>
    apply answers_numeral t
    rcases starts with starts | starts <;> rw [starts] <;> rfl

private theorem answers_accept {r : Reading} (t : Token) (ready : r.expected ≠ .resumption) :
    r.Answers t (r.accept t) := by
  unfold accept
  split
  case h_1 expected =>
    split
    · exact .inr ⟨_, rfl⟩
    · exact answers_cell t (.inl expected)
  case h_2 expected =>
    split
    · exact .inr ⟨_, rfl⟩
    · exact answers_cell t (.inr expected)
  case h_3 negative expected => exact answers_numeral t (by rw [expected]; rfl)
  case h_4 expected =>
    split
    case isTrue kind =>
      refine .inl ⟨.comma, [], expected ▸ .stop kind, ?_⟩
      simp [← expected]
    split
    case isTrue mark => exact .inl ⟨.cell, [], expected ▸ .comma mark, by simp⟩
    case isFalse => exact .inr ⟨_, rfl⟩
  case h_5 expected => exact absurd expected ready

end Reading

namespace Token

theorem isMark_iff {t : Token} {c : Char} : t.isMark c ↔ t.kind = .mark ∧ t.text = [.char c] := by
  simp [isMark]

theorem isMark_unique {t : Token} {c d : Char} (mark : t.isMark c) : t.isMark d ↔ d = c := by
  rw [isMark_iff] at mark ⊢
  simp [mark, eq_comm]

private theorem not_isMark_of_numeral {t : Token} {c : Char} (kind : t.kind = .numeral) :
    ¬ t.isMark c := by
  simp [isMark_iff, kind]

theorem not_stop_of_isMark {t : Token} {c : Char} (mark : t.isMark c) : t.kind ≠ .stop := by
  simp [isMark_iff.1 mark]

end Token

namespace Reading

private theorem cell_of_numeral {r : Reading} {t : Token} (kind : t.kind = .numeral) :
    r.cell t = r.numeral false t := by
  rw [cell, if_neg (Token.not_isMark_of_numeral kind), if_neg (Token.not_isMark_of_numeral kind)]

private theorem numeral_of_decimal {r : Reading} {negative : Bool} {t : Token} {c : Cell}
    (kind : t.kind = .numeral)
    (number : Numeral.decimal (if negative then .char '-' :: t.text else t.text) = .ok c) :
    r.numeral negative t = { r with cells := r.cells.push c, expected := .comma } := by
  simp only [numeral, if_pos kind, number]

private theorem cell_of_sign {r : Reading} {negative : Bool} {t : Token}
    (mark : t.isMark (signChar negative)) :
    r.cell t = { r with expected := .numeral negative } := by
  cases negative with
  | true =>
    change t.isMark '-' at mark
    rw [cell, if_pos mark]
  | false =>
    change t.isMark '+' at mark
    rw [cell, if_neg (by rw [Token.isMark_unique mark]; decide), if_pos mark]

/-- A token that meets the expectation is taken. -/
theorem accept_of_takes {r : Reading} {t : Token} {e : Expectation} {cells : List Cell}
    (takes : r.expected.Takes t e cells) :
    r.accept t = { r with expected := e, cells := r.cells ++ cells.toArray } := by
  obtain ⟨expected, before, faults⟩ := r
  cases takes with
  | stop kind => simp [accept, kind]
  | comma mark => simp [accept, Token.not_stop_of_isMark mark, mark]
  | sign starts mark =>
    rcases starts with rfl | rfl
    · simp [accept, Token.not_stop_of_isMark mark, cell_of_sign mark]
    · simp [accept, Token.not_stop_of_isMark mark, cell_of_sign mark]
  | numeral admitted kind number =>
    cases expected with
    | program | cell =>
      cases admitted
      simp [accept, kind, cell_of_numeral, numeral_of_decimal kind number]
    | numeral negative =>
      cases admitted
      simp [accept, numeral_of_decimal kind number]
    | comma | resumption => cases admitted

/-- A token without faults of its own that meets the expectation is read without a fault. -/
theorem read_of_takes {t : Token} {e next : Expectation} {before cells : List Cell}
    (takes : e.Takes t next cells) (faultless : t.faults = []) :
    (clean e before).read t = clean next (before ++ cells) := by
  rw [read, faultless, accept_of_takes (by exact takes)]
  simp [clean]

/-- A fault once reported stays reported. -/
theorem faultless_of_read {r : Reading} {t : Token} (faultless : (r.read t).faults = #[]) :
    r.faults = #[] ∧ t.faults = [] := by
  suffices kept : ∀ r : Reading, (r.accept t).faults = #[] → r.faults = #[] by
    simpa using kept _ faultless
  intro r faultless
  rcases Decidable.em (r.expected = .resumption) with expected | ready
  · simpa [accept, expected] using faultless
  · obtain ⟨next, cells, -, after⟩ | ⟨fault, after⟩ := answers_accept t ready
    · rw [after] at faultless
      exact faultless
    · simp [after] at faultless

theorem faultless_of_foldl {tokens : List Token} {r : Reading}
    (faultless : (tokens.foldl read r).faults = #[]) : r.faults = #[] := by
  induction tokens generalizing r with
  | nil => exact faultless
  | cons t tokens ih => exact (faultless_of_read (ih faultless)).1

/-- No other token is read without a fault. -/
theorem takes_of_read {t : Token} {e : Expectation} {before : List Cell}
    (ready : e ≠ .resumption) (faultless : ((clean e before).read t).faults = #[]) :
    t.faults = [] ∧ ∃ next cells, e.Takes t next cells ∧
      (clean e before).read t = clean next (before ++ cells) := by
  have tokenFaultless := (faultless_of_read faultless).2
  refine ⟨tokenFaultless, ?_⟩
  have unchanged : (clean e before).read t = (clean e before).accept t := by
    simp [read, tokenFaultless]
  rw [unchanged] at faultless
  obtain ⟨next, cells, takes, after⟩ | ⟨fault, after⟩ :=
    answers_accept (r := clean e before) t ready
  · exact ⟨next, cells, takes, read_of_takes takes tokenFaultless⟩
  · simp [after] at faultless

end Reading

/-- After a token that met its expectation the reader is not looking for a place to resume. -/
theorem Expectation.Takes.ready {e next : Expectation} {t : Token} {cells : List Cell}
    (takes : e.Takes t next cells) : next ≠ .resumption := by
  cases takes <;> simp

end CellMachine.Source
