import CellMachine.Proofs.Source.Reading
import CellMachine.Proofs.Source.Scan
import CellMachine.Proofs.Text.Utf8

/-! # Program texts are read exactly

A program text is accepted exactly when it is the encoding of a text that spells cells, and is then
read as these cells. Every other byte string is rejected with at least one diagnostic.

Both directions follow the reader from token to token: the tokens of a text that parses are taken
one after the other, and the tokens that were taken are those of a text that parses.
-/

namespace CellMachine.Source

open Text

/-- A mark is a single symbol. -/
theorem Token.eq_of_isMark_cut {position : Position} {before : List Fault} {s : Symbol}
    {rest : List Symbol} {c : Char} (mark : (Token.cut position before s rest).isMark c) :
    s = .char c ∧ rest.drop (Token.tailLength s rest) = rest := by
  have text := (Token.isMark_iff.1 mark).2
  simp only [Token.cut_text, List.cons.injEq] at text
  obtain ⟨rfl, none⟩ := text
  refine ⟨rfl, ?_⟩
  simpa [none] using List.take_append_drop (Token.tailLength (.char c) rest) rest

/-- A token that was cut out of a text and taken by the reader is the next one of the grammar. -/
theorem Expectation.Takes.parses {e next : Expectation} {position : Position}
    {before : List Fault} {blank : List Char} {s : Symbol} {rest : List Symbol}
    {cells more : List Cell} {others : List Char} (isBlank : IsBlank blank)
    (takes : e.Takes (Token.cut position before s rest) next cells)
    (faultless : (Token.cut position before s rest).faults = [])
    (spelled : rest.drop (Token.tailLength s rest) = others.map .char)
    (parsed : Parses next others more) :
    ∃ text, blank.map .char ++ s :: rest = text.map Symbol.char ∧
      Parses e text (cells ++ more) := by
  cases takes with
  | stop kind =>
    rw [Token.cut_kind] at kind
    split at kind <;> cases kind
  | comma mark =>
    obtain ⟨rfl, single⟩ := Token.eq_of_isMark_cut mark
    refine ⟨blank ++ ',' :: others, ?_, .comma isBlank parsed⟩
    simp [← spelled, single]
  | @sign _ _ negative starts mark =>
    obtain ⟨rfl, single⟩ := Token.eq_of_isMark_cut mark
    refine ⟨blank ++ signChar negative :: others, ?_, .sign isBlank starts parsed⟩
    simp [← spelled, single]
  | @numeral _ _ negative c admitted kind number =>
    have digit : s.isDecimal := by
      rw [Token.cut_kind] at kind
      split at kind
      case isTrue digit => exact digit
      case isFalse => cases kind
    rw [Token.cut_text] at number
    -- The number tells that all symbols are digits, and the spelling which digits they may be.
    obtain ⟨digits, text, decimal, value⟩ := (Numeral.decimal_eq_ok digit).1 number
    have nonempty : digits ≠ [] := by
      rintro rfl
      cases text
    have complaints := (Token.cut_faults_eq_nil.1 faultless).2.2 digit
    rw [text] at complaints
    have numeral := (Token.numeralComplaints_eq_nil nonempty decimal).1 complaints
    refine ⟨blank ++ digits ++ others, ?_, .numeral isBlank admitted numeral value parsed⟩
    rw [← List.take_append_drop (Token.tailLength s rest) rest, ← List.cons_append, text, spelled]
    simp

/-- The end of the text is taken where a comma may follow. -/
theorem Expectation.Takes.of_stop {e next : Expectation} {t : Token} {cells : List Cell}
    (takes : e.Takes t next cells) (kind : t.kind = .stop) :
    e = .comma ∧ next = .comma ∧ cells = [] := by
  cases takes with
  | stop => exact ⟨rfl, rfl, rfl⟩
  | comma mark => exact absurd kind (Token.not_stop_of_isMark mark)
  | sign _ mark => exact absurd kind (Token.not_stop_of_isMark mark)
  | numeral _ numeral => simp [kind] at numeral

/-- Only a text of the grammar is read without a fault. -/
theorem parses_of_faultless {position : Position} {before : List Fault} {symbols : List Symbol}
    {e : Expectation} {cells : List Cell} (ready : e ≠ .resumption)
    (faultless : ((Token.scanFrom position before symbols).foldl Reading.read
      (.clean e cells)).faults = #[]) :
    ∃ text more, symbols = text.map .char ∧ Parses e text more ∧
      (Token.scanFrom position before symbols).foldl Reading.read (.clean e cells) =
        .clean .comma (cells ++ more) := by
  induction size : symbols.length using Nat.strongRecOn
    generalizing position before symbols e cells with
  | ind n ih =>
    obtain ⟨blank, isBlank, rfl⟩ | ⟨blank, s, rest, isBlank, notLayout, rfl⟩ :=
      split_layout symbols
    · rw [Token.scanFrom_blank isBlank] at faultless ⊢
      obtain ⟨-, next, more, takes, read⟩ := Reading.takes_of_read ready faultless
      obtain ⟨rfl, rfl, rfl⟩ := takes.of_stop rfl
      exact ⟨blank, [], rfl, .stop isBlank, read⟩
    · rw [Token.scanFrom_symbol isBlank notLayout] at faultless ⊢
      simp only [List.foldl_cons] at faultless ⊢
      -- No fault at the end means no fault at the first token, which is therefore taken.
      obtain ⟨clean, next, first, takes, read⟩ :=
        Reading.takes_of_read ready (Reading.faultless_of_foldl faultless)
      rw [read] at faultless ⊢
      have shorter : (rest.drop (Token.tailLength s rest)).length < n := by
        simp only [← size, List.length_append, List.length_cons, List.length_drop]
        omega
      obtain ⟨others, more, spelled, parsed, result⟩ := ih _ shorter takes.ready faultless rfl
      obtain ⟨text, whole, parses⟩ := takes.parses isBlank clean spelled parsed
      exact ⟨text, first ++ more, whole, parses, by rw [result, List.append_assoc]⟩

/-- A token of the grammar behind a blank is cut out and taken. -/
theorem foldl_scanFrom_token {blank : List Char} {c : Char} {tail others : List Char}
    {e next : Expectation} {first : List Cell} (isBlank : IsBlank blank)
    (notLayout : ¬ Token.isLayout (.char c)) (visible : ∀ d ∈ c :: (tail ++ others), 0 < d.toNat)
    (whole : Token.tailLength (.char c) ((tail ++ others).map .char) = tail.length)
    (spelling : c.isDigit → IsNumeral (c :: tail))
    (takes : ∀ t : Token, t.kind = (if c.isDigit then .numeral else .mark) →
      t.text = (c :: tail).map .char → e.Takes t next first)
    (position : Position) (cells : List Cell) :
    ∃ after, (Token.scanFrom position [] ((blank ++ c :: (tail ++ others)).map .char)).foldl
        Reading.read (.clean e cells) =
      (Token.scanFrom after [] (others.map .char)).foldl Reading.read
        (.clean next (cells ++ first)) := by
  have taken : ((tail ++ others).map Symbol.char).take tail.length = tail.map .char := by simp
  have dropped : ((tail ++ others).map Symbol.char).drop tail.length = others.map .char := by simp
  have ahead (start : Position) : Token.lookAhead start ((c :: (tail ++ others)).map .char) = [] :=
    Token.lookAhead_eq_nil visible
  rw [List.map_append, List.map_cons, Token.scanFrom_symbol isBlank notLayout]
  simp only [List.foldl_cons, whole, taken, dropped]
  refine ⟨(position.advanceAll (blank.map .char)).advanceAll (.char c :: tail.map .char), ?_⟩
  rw [Reading.read_of_takes]
  · refine takes _ ?_ ?_
    · rw [Token.cut_kind, Symbol.isDecimal_char]
    · rw [Token.cut_text, whole, taken, List.map_cons]
  · rw [Token.cut_faults_eq_nil, whole, taken, dropped]
    refine ⟨?_, ?_, ?_⟩
    · rw [← List.map_cons, ahead]
      simp
    · exact Token.lookAhead_eq_nil fun d member => visible d (by simp [member])
    · intro digit
      have numeral := spelling (by simpa using digit)
      exact (Token.numeralComplaints_eq_nil numeral.nonempty numeral.decimal).2 numeral

/-- Commas and signs are tokens of their own. -/
theorem foldl_scanFrom_mark {blank : List Char} {c : Char} {others : List Char}
    {e next : Expectation} (isBlank : IsBlank blank) (mark : c ∈ [',', '+', '-'])
    (visible : ∀ d ∈ others, 0 < d.toNat)
    (takes : ∀ t : Token, t.isMark c → e.Takes t next []) (position : Position)
    (cells : List Cell) :
    ∃ after, (Token.scanFrom position [] ((blank ++ c :: others).map .char)).foldl Reading.read
        (.clean e cells) =
      (Token.scanFrom after [] (others.map .char)).foldl Reading.read (.clean next cells) := by
  have facts : ¬ Token.isLayout (.char c) ∧ 0 < c.toNat ∧ ¬ c.isDigit := by
    simp only [List.mem_cons, List.not_mem_nil, or_false] at mark
    rcases mark with rfl | rfl | rfl <;> decide
  obtain ⟨notLayout, nonzero, notDigit⟩ := facts
  have taken (t : Token) (kind : t.kind = (if c.isDigit then .numeral else .mark))
      (text : t.text = [c].map .char) : e.Takes t next [] :=
    takes t (Token.isMark_iff.2 ⟨by simpa [notDigit] using kind, text⟩)
  have single : Token.tailLength (.char c) (([] ++ others).map .char) = ([] : List Char).length :=
    Token.tailLength_of_mark (by simpa using notDigit)
  have read := foldl_scanFrom_token isBlank notLayout (List.forall_mem_cons.2 ⟨nonzero, visible⟩)
    single (fun digit => absurd digit notDigit) taken position cells
  simpa using read

/-- A text of the grammar is read without a fault, as the cells that it spells. -/
theorem Parses.foldl_scanFrom {e : Expectation} {text : List Char} {more : List Cell}
    (parsed : Parses e text more) (position : Position) (cells : List Cell) :
    (Token.scanFrom position [] (text.map .char)).foldl Reading.read (.clean e cells) =
      .clean .comma (cells ++ more) := by
  have visible {e : Expectation} {text : List Char} {more : List Cell}
      (parsed : Parses e text more) : ∀ c ∈ text, 0 < c.toNat :=
    fun c member => (parsed.ascii c member).1
  induction parsed generalizing position cells with
  | stop isBlank =>
    rw [Token.scanFrom_blank isBlank, List.foldl_cons, List.foldl_nil]
    exact Reading.read_of_takes (.stop rfl) rfl
  | comma isBlank more ih =>
    obtain ⟨after, read⟩ := foldl_scanFrom_mark isBlank (by decide) (visible more)
      (fun t mark => .comma mark) position cells
    rw [read, ih]
  | @sign e negative _ _ _ isBlank starts more ih =>
    have listed : signChar negative ∈ [',', '+', '-'] := by cases negative <;> decide
    obtain ⟨after, read⟩ := foldl_scanFrom_mark isBlank listed (visible more)
      (fun t mark => .sign starts mark) position cells
    rw [read, ih]
  | @numeral e negative blank digits rest c more isBlank admitted isNumeral number parsed ih =>
    have seen := visible (.numeral IsBlank.nil admitted isNumeral number parsed)
    obtain ⟨d, digits, rfl⟩ := List.exists_cons_of_ne_nil isNumeral.nonempty
    have digit : d.isDigit := isNumeral.decimal d (by simp)
    have others : ∀ d ∈ digits, d.isDigit := fun d member => isNumeral.decimal d (by simp [member])
    have notLayout : ¬ Token.isLayout (.char d) := by
      rw [isLayout_char]
      intro listed
      simp only [List.mem_cons, List.not_mem_nil, or_false] at listed
      rcases listed with rfl | rfl | rfl | rfl <;> contradiction
    have taken (t : Token) (kind : t.kind = (if d.isDigit then .numeral else .mark))
        (text : t.text = (d :: digits).map .char) : e.Takes t .comma [c] := by
      refine .numeral admitted (by simpa [digit] using kind) ?_
      rw [text, List.map_cons, Numeral.decimal_eq_ok (by simpa using digit)]
      exact ⟨d :: digits, rfl, isNumeral.decimal, number⟩
    obtain ⟨after, read⟩ := foldl_scanFrom_token isBlank notLayout (by simpa using seen)
      (Token.tailLength_of_digits digit others parsed.delimited) (fun _ => isNumeral) taken
      position cells
    rw [List.append_assoc, List.cons_append, read, ih]
    simp

theorem Token.scan_of_unmarked {text : List Char} (visible : ∀ c ∈ text, 0 < c.toNat)
    (unmarked : '\ufeff' ∉ text) :
    Token.scan (text.map .char) = Token.scanFrom {} [] (text.map .char) := by
  rw [Token.scan, Token.lookAhead_eq_nil visible]
  intro rest marked
  obtain ⟨c, others, rfl, mark, -⟩ := List.map_eq_cons_iff.1 marked
  cases mark
  exact unmarked (by simp)

private theorem Token.scan_of_ascii {text : List Char}
    (ascii : ∀ c ∈ text, 0 < c.toNat ∧ c.toNat < 128) :
    Token.scan (text.map .char) = Token.scanFrom {} [] (text.map .char) :=
  Token.scan_of_unmarked (fun c member => (ascii c member).1)
    fun marked => absurd (ascii _ marked).2 (by decide)

private theorem Token.scan_of_mark {text : List Char} (visible : ∀ c ∈ text, 0 < c.toNat) :
    ∃ start, Token.scan (('\ufeff' :: text).map .char) =
      Token.scanFrom start [] (text.map .char) := by
  refine ⟨Position.advance {} (.char '\ufeff'), ?_⟩
  rw [List.map_cons, Token.scan, Token.lookAhead_eq_nil visible]

/-- A text is read as the cells that it spells. -/
theorem reading_of_spells {text : List Char} {cells : List Cell} (spelled : Spells text cells) :
    reading (Utf8.encode text) = .clean .comma cells := by
  obtain ⟨pieces, nonempty, spelled, shape⟩ := spelled
  have parsed := parses_program_iff.2 ⟨pieces, nonempty, spelled, rfl⟩
  rw [reading, Utf8.decode_encode]
  rcases shape with rfl | rfl
  · rw [Token.scan_of_ascii parsed.ascii]
    exact parsed.foldl_scanFrom {} []
  · obtain ⟨start, scanned⟩ := Token.scan_of_mark fun c member => (parsed.ascii c member).1
    rw [scanned]
    exact parsed.foldl_scanFrom start []

/-- A byte string that is read without a fault is a text that spells cells. -/
theorem spells_of_faultless {bytes : List UInt8} (faultless : (reading bytes).faults = #[]) :
    ∃ text cells, bytes = Utf8.encode text ∧ Spells text cells := by
  have first : Expectation.program ≠ .resumption := by decide
  change ((Token.scan (Utf8.decode bytes)).foldl Reading.read (.clean .program [])).faults = #[]
    at faultless
  rw [Token.scan.eq_def] at faultless
  split at faultless
  case h_1 rest decoded =>
    obtain ⟨text, cells, rfl, parsed, -⟩ := parses_of_faultless first faultless
    obtain ⟨pieces, nonempty, spelled, rfl⟩ := parses_program_iff.1 parsed
    exact ⟨_, cells, Utf8.decode_eq_iff.1 (decoded.trans (List.map_cons ..).symm), pieces, nonempty,
      spelled, .inr rfl⟩
  case h_2 =>
    obtain ⟨text, cells, decoded, parsed, -⟩ := parses_of_faultless first faultless
    obtain ⟨pieces, nonempty, spelled, rfl⟩ := parses_program_iff.1 parsed
    exact ⟨_, cells, Utf8.decode_eq_iff.1 decoded, pieces, nonempty, spelled, .inl rfl⟩

theorem parse_of_spells (name : String) {text : List Char} {cells : List Cell}
    (spelled : Spells text cells) : parse name (Utf8.encode text) = .ok (.ofList cells) := by
  rw [parse, reading_of_spells spelled]
  rfl

private theorem spells_of_parse {name : String} {bytes : List UInt8} {memory : Memory}
    (success : parse name bytes = .ok memory) :
    ∃ text, bytes = Utf8.encode text ∧ Spells text memory.toList := by
  simp only [parse] at success
  split at success
  case isFalse => cases success
  case isTrue faultless =>
    obtain ⟨text, cells, rfl, spelled⟩ := spells_of_faultless (by simpa using faultless)
    cases success
    refine ⟨text, rfl, ?_⟩
    rw [reading_of_spells spelled]
    exact spelled

/-- A program has at least one cell. -/
theorem toList_ne_nil_of_parse {name : String} {bytes : List UInt8} {memory : Memory}
    (success : parse name bytes = .ok memory) : memory.toList ≠ [] := by
  obtain ⟨_, -, pieces, nonempty, spelled, -⟩ := spells_of_parse success
  intro empty
  rw [empty] at spelled
  cases spelled
  exact nonempty rfl

private theorem parse_of_faults (name : String) {bytes : List UInt8}
    (faults : (reading bytes).faults ≠ #[]) :
    ∃ diagnostics, diagnostics ≠ [] ∧
      parse name bytes = .error ⟨.faultySource diagnostics, []⟩ := by
  refine ⟨_, ?_, if_neg (by simpa using faults)⟩
  simpa using faults

/-- A byte string is accepted exactly when it is the encoding of a text that spells cells, and is
read as these; all others are rejected with at least one diagnostic. -/
theorem parse_exact (name : String) (bytes : List UInt8) :
    (∀ memory, parse name bytes = .ok memory ↔
      ∃ text, bytes = Utf8.encode text ∧ Spells text memory.toList) ∧
    ((∃ diagnostics, diagnostics ≠ [] ∧
        parse name bytes = .error ⟨.faultySource diagnostics, []⟩) ↔
      ¬ ∃ text cells, bytes = Utf8.encode text ∧ Spells text cells) := by
  refine ⟨fun memory => ⟨spells_of_parse, ?_⟩, ?_, ?_⟩
  · rintro ⟨text, rfl, spelled⟩
    exact parse_of_spells name spelled
  · rintro ⟨diagnostics, -, failure⟩ ⟨text, cells, rfl, spelled⟩
    rw [parse_of_spells name spelled] at failure
    cases failure
  · intro unspelled
    exact parse_of_faults name fun faultless => unspelled (spells_of_faultless faultless)

end CellMachine.Source
