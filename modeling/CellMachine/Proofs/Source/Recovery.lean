import CellMachine.Proofs.Source.Program
import CellMachine.Proofs.Source.Report

/-! # Every bad cell is reported, and no other

A text is cut at its commas into segments, and a comma is a token of its own wherever it stands. The
tokens of a segment are thus those of the segment alone, with the comma that closes it in place of
the end. Whatever a reader expects, it complains about a comma where it would complain about the
end, and behind the comma it expects a cell. What is reported from the start of a segment up to its
comma is therefore what would be reported about the segment alone: nothing when the segment spells a
cell, and something when it does not.
-/

namespace CellMachine.Source

open Text

/-! ## Tokens in front of a comma -/

namespace Token

variable {position : Position} {before : List Fault} {s : Symbol} {rest more : List Symbol}

private theorem takeWhile_append_comma (radix : Radix) (rest more : List Symbol) :
    (rest ++ .char ',' :: more).takeWhile (continues radix) =
      rest.takeWhile (continues radix) := by
  have stops : ¬ continues radix (.char ',') := by cases radix <;> decide
  induction rest with
  | nil => exact List.takeWhile_cons_of_neg stops
  | cons s rest ih => simp only [List.cons_append, List.takeWhile_cons, ih]

/-- No comma belongs to a numeral. -/
theorem tailLength_append_comma :
    tailLength s (rest ++ .char ',' :: more) = tailLength s rest := by
  rw [tailLength.eq_def, tailLength.eq_def, takeWhile_append_comma .decimal]
  split
  · cases rest with
    | nil => exact congrArg List.length (takeWhile_append_comma .octal [] more)
    | cons letter rest =>
      dsimp only [List.cons_append]
      rw [← List.cons_append, takeWhile_append_comma .octal]
      split
      · rw [takeWhile_append_comma]
      · rfl
  · rfl

private theorem tailLength_le : tailLength s rest ≤ rest.length := by
  have taken (radix : Radix) (symbols : List Symbol) :
      (symbols.takeWhile (continues radix)).length ≤ symbols.length :=
    (List.takeWhile_prefix _).length_le
  rw [tailLength.eq_def]
  split
  · split
    · exact Nat.zero_le _
    case h_2 letter digits =>
      split
      · rw [List.length_cons, Nat.add_comm]
        exact Nat.add_le_add_right (taken _ digits) 1
      · exact taken _ _
  split
  · exact taken _ _
  · exact Nat.zero_le _

private theorem lookAhead_append_comma :
    lookAhead position (rest ++ .char ',' :: more) = lookAhead position rest := by
  cases rest with
  | nil => rfl
  | cons s rest => rfl

private theorem cut_append_comma :
    cut position before s (rest ++ .char ',' :: more) = cut position before s rest := by
  rw [cut, cut, tailLength_append_comma, List.take_append_of_le_length tailLength_le,
    List.drop_append_of_le_length tailLength_le, lookAhead_append_comma]

def stopAt (position : Position) : Token :=
  { kind := .stop, text := [], position, faults := [] }

def commaAt (position : Position) : Token :=
  { kind := .mark, text := [.char ','], position, faults := [] }

private theorem cut_comma (visible : lookAhead position more = []) :
    cut position [] (.char ',') more = commaAt position := by
  have alone : tailLength (.char ',') more = 0 := tailLength_of_mark (by decide)
  simp [cut, alone, visible, commaAt, Symbol.isDecimal_char]

/-- The tokens of a segment are the same whether the text ends or goes on behind a comma. -/
theorem scanFrom_append_comma {segment : List Symbol} (single : .char ',' ∉ segment)
    (visible : ∀ position, lookAhead position more = []) (position : Position) :
    let stop := position.advanceAll segment
    ∃ tokens, scanFrom position [] segment = tokens ++ [stopAt stop] ∧
      scanFrom position [] (segment ++ .char ',' :: more) =
        tokens ++ commaAt stop :: scanFrom (stop.advance (.char ',')) [] more := by
  intro stop
  induction segment using text_induction generalizing position with
  | blank blank isBlank =>
    have alone : tailLength (.char ',') more = 0 := tailLength_of_mark (by decide)
    have allowed : lookAhead stop (.char ',' :: more) = [] := rfl
    refine ⟨[], scanFrom_blank isBlank, ?_⟩
    rw [scanFrom_symbol isBlank (by decide), alone]
    dsimp only
    rw [allowed, List.append_nil, ite_self, cut_comma (visible _)]
    rfl
  | symbol blank s rest isBlank notLayout ih =>
    have first (start : Position) : lookAhead start (s :: (rest ++ .char ',' :: more)) =
        lookAhead start (s :: rest) := rfl
    have others : .char ',' ∉ rest.drop (tailLength s rest) := fun member =>
      single (by simp [List.mem_of_mem_drop member])
    have through : ((position.advanceAll (blank.map .char)).advanceAll
        (s :: rest.take (tailLength s rest))).advanceAll (rest.drop (tailLength s rest)) =
          stop := by
      rw [← Position.advanceAll_append, ← Position.advanceAll_append, List.cons_append,
        List.take_append_drop]
    obtain ⟨tokens, alone, closed⟩ := ih others ((position.advanceAll (blank.map .char)).advanceAll
      (s :: rest.take (tailLength s rest)))
    rw [through] at alone closed
    rw [List.append_assoc, List.cons_append, scanFrom_symbol isBlank notLayout,
      scanFrom_symbol isBlank notLayout]
    simp only [cut_append_comma, tailLength_append_comma, first,
      List.take_append_of_le_length tailLength_le, List.drop_append_of_le_length tailLength_le,
      alone, closed]
    exact ⟨_ :: tokens, rfl, rfl⟩

end Token

/-! ## The reader at a comma -/

namespace Expectation

/-- Behind a comma a cell is expected, whatever was expected before. -/
theorem after_comma (e : Expectation) (position : Position) :
    e.after (.commaAt position) = .cell := by
  cases e <;> rfl

/-- A comma is reported where the end of the text would be. -/
theorem reports_comma_eq_nil_iff (e : Expectation) (position : Position) :
    e.reports (.commaAt position) = [] ↔ e.reports (.stopAt position) = [] := by
  cases e with
  | program | cell | numeral => exact iff_of_false (List.cons_ne_nil _ _) (List.cons_ne_nil _ _)
  | comma | resumption => exact Iff.rfl

private theorem reported_comma_eq_nil_iff (e : Expectation) (tokens : List Token)
    (position : Position) :
    e.reported (tokens ++ [.commaAt position]) = [] ↔
      e.reported (tokens ++ [.stopAt position]) = [] := by
  have last (t : Token) : (tokens.foldl after e).reported [t] = (tokens.foldl after e).reports t :=
    List.append_nil _
  rw [reported_append, reported_append, List.append_eq_nil_iff, List.append_eq_nil_iff, last, last,
    reports_comma_eq_nil_iff]

end Expectation

/-! ## Segments -/

/-- A text without commas that meets the expectation of a cell spells one cell. -/
theorem Parses.isCell {e : Expectation} {segment : List Char} {cells : List Cell}
    (parsed : Parses e segment cells) (starts : e = .program ∨ e = .cell)
    (single : ',' ∉ segment) : ∃ c, IsCell segment c := by
  obtain ⟨rfl, -⟩ | ⟨piece, pieces, c, others, opens, -, -, rfl⟩ := parsed.pieces
  · rcases starts with impossible | impossible <;> cases impossible
  · cases pieces with
    | cons next pieces => exact absurd single (by simp)
    | nil =>
      refine ⟨c, ?_⟩
      rw [List.flatMap_nil, List.append_nil]
      rcases starts with rfl | rfl
      · exact opens
      · exact opens

/-- Without commas, nothing is reported about a spelling of a cell, and something about any other
text. -/
theorem reported_eq_nil_iff {e : Expectation} (starts : e = .program ∨ e = .cell)
    (position : Position) {segment : List Char} (single : ',' ∉ segment) :
    e.reported (Token.scanFrom position [] (segment.map .char)) = [] ↔ ∃ c, IsCell segment c := by
  have faults : _ = e.reported _ := Reading.foldl_read_faults (.clean e [])
    (Token.scanFrom position [] (segment.map .char))
  rw [← faults, Array.toList_eq_nil_iff]
  constructor
  · intro faultless
    have ready : e ≠ .resumption := by rcases starts with rfl | rfl <;> decide
    obtain ⟨text, cells, spelled, parsed, -⟩ := parses_of_faultless ready faultless
    obtain rfl := List.map_injective_iff.2 (fun _ _ => Symbol.char.inj) spelled
    exact parsed.isCell starts single
  · rintro ⟨c, cell⟩
    have parsed := cell.parses starts (.stop IsBlank.nil)
    rw [List.append_nil] at parsed
    rw [parsed.foldl_scanFrom]
    rfl

private theorem Position.offset_advanceAll_char (p : Position) (text : List Char) :
    (p.advanceAll (text.map .char)).offset = p.offset + (Utf8.encode text).length := by
  rw [offset_advanceAll, List.flatMap_map]
  rfl

private theorem Position.offset_advanceAll_comma (p : Position) (segment : List Char) :
    (p.advanceAll ((segment ++ [',']).map .char)).offset =
      p.offset + (Utf8.encode segment).length + 1 := by
  rw [offset_advanceAll_char, Utf8.encode_append, List.length_append]
  rfl

/-- What is reported over tokens that stand in a text is reported in that text. -/
theorem offset_of_mem_reported {e : Expectation} {position : Position} {text : List Char}
    {tokens : List Token} (stand : ∀ t ∈ tokens, t.StandsIn position (text.map .char)) {f : Fault}
    (member : f ∈ e.reported tokens) : position.offset ≤ f.position.offset ∧
      f.position.offset ≤ position.offset + (Utf8.encode text).length := by
  obtain ⟨t, among, place⟩ :=
    Expectation.position_of_mem_reported (fun t member => (stand t member).2) member
  rw [place, ← Position.offset_advanceAll_char]
  exact (stand t among).offset_le

/-- What is reported about a segment at a position: something unless it spells a cell, and all of it
from the start of the segment to its end. -/
structure Judged (position : Position) (segment : List Char) (faults : List Fault) : Prop where
  exact : faults = [] ↔ ∃ c, IsCell segment c
  within : ∀ f ∈ faults, position.offset ≤ f.position.offset ∧
    f.position.offset ≤ position.offset + (Utf8.encode segment).length

private theorem judged_alone {e : Expectation} (starts : e = .program ∨ e = .cell)
    (position : Position) {segment : List Char} (single : ',' ∉ segment) :
    Judged position segment (e.reported (Token.scanFrom position [] (segment.map .char))) :=
  ⟨reported_eq_nil_iff starts position single, fun _ member =>
    offset_of_mem_reported (Token.scanFrom_standsIn (by simp)) member⟩

/-- A segment in front of a comma is judged as it would be alone, and the reader goes on behind the
comma as behind any other. -/
theorem judged_closed {e : Expectation} (starts : e = .program ∨ e = .cell) (position : Position)
    {segment more : List Char} (single : ',' ∉ segment) (visible : ∀ c ∈ more, 0 < c.toNat) :
    ∃ own, Judged position segment own ∧
      e.reported (Token.scanFrom position [] ((segment ++ ',' :: more).map .char)) =
        own ++ Expectation.cell.reported
          (Token.scanFrom (position.advanceAll ((segment ++ [',']).map .char)) []
            (more.map .char)) := by
  have absent : Symbol.char ',' ∉ segment.map .char := by simpa using single
  obtain ⟨tokens, alone, closed⟩ := Token.scanFrom_append_comma absent
    (fun _ => Token.lookAhead_eq_nil visible) position
  have stand := @Token.scanFrom_standsIn position [] (segment.map .char) (by simp)
  rw [alone, List.forall_mem_append] at stand
  refine ⟨e.reported (tokens ++ [.commaAt (position.advanceAll (segment.map .char))]),
    ⟨?_, fun f => offset_of_mem_reported ?_⟩, ?_⟩
  · rw [Expectation.reported_comma_eq_nil_iff, ← alone]
    exact reported_eq_nil_iff starts position single
  · exact List.forall_mem_append.2 ⟨stand.1, List.forall_mem_singleton.2
      ⟨⟨_, List.prefix_rfl, rfl⟩, by simp [Token.commaAt]⟩⟩
  · rw [List.map_append, List.map_cons, closed, List.append_cons, Expectation.reported_append,
      List.foldl_concat, Expectation.after_comma, List.map_append, Position.advanceAll_append]
    rfl

/-- A text is its first segment, or more stands behind the first comma. -/
theorem split_cases {text first : List Char} {others : List (List Char)}
    (split : text.splitOn ',' = first :: others) : ',' ∉ first ∧
      (others = [] ∧ text = first ∨
        ∃ more, more.splitOn ',' = others ∧ text = first ++ ',' :: more) := by
  by_cases comma : ',' ∈ text
  · obtain ⟨front, more, rfl, single⟩ := List.eq_append_cons_of_mem comma
    rw [List.splitOn_append_cons_self_of_not_mem single] at split
    cases split
    exact ⟨single, .inr ⟨more, rfl, rfl⟩⟩
  · rw [List.splitOn_eq_singleton comma] at split
    cases split
    exact ⟨comma, .inl ⟨rfl, rfl⟩⟩

private theorem split_segment {text segment : List Char} {front back : List (List Char)}
    (split : text.splitOn ',' = front ++ segment :: back) : ',' ∉ segment ∧ segment ⊆ text := by
  induction front generalizing text with
  | nil =>
    obtain ⟨single, ⟨-, rfl⟩ | ⟨more, -, rfl⟩⟩ := split_cases split
    · exact ⟨single, List.Subset.refl _⟩
    · exact ⟨single, List.subset_append_left _ _⟩
  | cons first front ih =>
    obtain ⟨-, ⟨impossible, -⟩ | ⟨more, rest, rfl⟩⟩ := split_cases split
    · cases front <;> cases impossible
    · obtain ⟨single, inRest⟩ := ih rest
      exact ⟨single, fun c member => by simp [inRest member]⟩

/-- What is reported about a text is what is reported about its segments, one after the other. -/
theorem reported_split {e : Expectation} (starts : e = .program ∨ e = .cell) (position : Position)
    {text : List Char} (visible : ∀ c ∈ text, 0 < c.toNat) {front back : List (List Char)}
    {segment : List Char} (split : text.splitOn ',' = front ++ segment :: back) :
    let start := position.advanceAll ((front.flatMap (· ++ [','])).map .char)
    ∃ earlier own later,
      e.reported (Token.scanFrom position [] (text.map .char)) = earlier ++ own ++ later ∧
      (∀ f ∈ earlier, f.position.offset < start.offset) ∧ Judged start segment own ∧
      ∀ f ∈ later, start.offset + (Utf8.encode segment).length < f.position.offset := by
  intro start
  induction front generalizing e position text with
  | nil =>
    obtain ⟨single, ⟨rfl, rfl⟩ | ⟨more, -, rfl⟩⟩ := split_cases split
    · exact ⟨[], _, [], by simp, by simp, judged_alone starts position single, by simp⟩
    · have others : ∀ c ∈ more, 0 < c.toNat := fun c member => visible c (by simp [member])
      obtain ⟨own, judged, whole⟩ := judged_closed starts position single others
      refine ⟨[], own, _, whole, by simp, judged, fun f member => ?_⟩
      have behind := (offset_of_mem_reported (Token.scanFrom_standsIn (by simp)) member).1
      rw [Position.offset_advanceAll_comma] at behind
      exact behind
  | cons first front ih =>
    obtain ⟨single, ⟨impossible, -⟩ | ⟨more, splitRest, rfl⟩⟩ := split_cases split
    · cases front <;> cases impossible
    · have others : ∀ c ∈ more, 0 < c.toNat := fun c member => visible c (by simp [member])
      obtain ⟨own, judged, whole⟩ := judged_closed starts position single others
      obtain ⟨earlier, found, later, rest, before, judgedToo, behind⟩ :=
        ih (.inr rfl) (position.advanceAll ((first ++ [',']).map .char)) others splitRest
      have through : (position.advanceAll ((first ++ [',']).map .char)).advanceAll
          ((front.flatMap (· ++ [','])).map .char) = start := by
        rw [← Position.advanceAll_append, ← List.map_append]
        rfl
      rw [through] at before judgedToo behind
      refine ⟨own ++ earlier, found, later, ?_, ?_, judgedToo, behind⟩
      · rw [whole, rest]
        simp only [List.append_assoc]
      · refine List.forall_mem_append.2 ⟨fun f member => ?_, before⟩
        have near := (judged.within f member).2
        rw [← through, Position.offset_advanceAll_char, Position.offset_advanceAll_comma]
        omega

/-! ## Diagnostics -/

/-- The diagnostics with which a text is rejected; an accepted text has none. -/
def diagnostics (name : String) (text : List UInt8) : List Diagnostic :=
  match parse name text with
  | .error ⟨.faultySource found, _⟩ => found
  | _ => []

private theorem diagnostics_eq (name : String) (text : List UInt8) : diagnostics name text =
    (reading text).faults.toList.map fun f => ⟨name, f.position, f.complaint⟩ := by
  unfold diagnostics parse
  by_cases accepted : (reading text).faults.isEmpty
  · rw [if_pos accepted, Array.isEmpty_iff.1 accepted]
    rfl
  · rw [if_neg accepted]
    rfl

/-- The offsets of a segment behind others, from its start to the comma that closes it or to the end
of the text. -/
def InSpan (front : List (List Char)) (segment : List Char) (offset : Nat) : Prop :=
  let start := (Utf8.encode (front.flatMap (· ++ [',']))).length
  start ≤ offset ∧ offset ≤ start + (Utf8.encode segment).length

/-- Texts without NUL, which is forbidden, and without byte order marks. -/
def Unmarked (text : List Char) : Prop :=
  ∀ c ∈ text, c ≠ '\x00' ∧ c ≠ '\ufeff'

instance (text : List Char) : Decidable (Unmarked text) :=
  List.decidableBAll _ text

theorem Unmarked.visible {text : List Char} (unmarked : Unmarked text) :
    ∀ c ∈ text, 0 < c.toNat :=
  fun c member => Nat.pos_of_ne_zero fun zero => (unmarked c member).1 (Char.toNat_inj.1 zero)

theorem Unmarked.faults_reading {text : List Char} (unmarked : Unmarked text) :
    (reading (Utf8.encode text)).faults.toList =
      Expectation.program.reported (Token.scanFrom {} [] (text.map .char)) := by
  rw [Source.faults_reading, Utf8.decode_encode,
    Token.scan_of_unmarked unmarked.visible fun member => (unmarked _ member).2 rfl]

private theorem exists_parse_eq_ok_iff {name : String} {text : List UInt8} :
    (∃ memory, parse name text = .ok memory) ↔ (reading text).faults.toList = [] := by
  simp only [parse]
  split
  case isTrue accepted => exact iff_of_true ⟨_, rfl⟩ (by simpa using accepted)
  case isFalse rejected =>
    refine iff_of_false ?_ (by simpa using rejected)
    rintro ⟨memory, impossible⟩
    cases impossible

/-- A segment is accepted alone exactly when it spells a cell. -/
theorem exists_parse_segment_iff (name : String) {segment : List Char}
    (unmarked : Unmarked segment) (single : ',' ∉ segment) :
    (∃ memory, parse name (Utf8.encode segment) = .ok memory) ↔ ∃ c, IsCell segment c := by
  rw [exists_parse_eq_ok_iff, unmarked.faults_reading]
  exact reported_eq_nil_iff (.inl rfl) {} single

/-- A segment spells a cell exactly when there is no diagnostic in it. -/
theorem isCell_iff_forall_diagnostics (name : String) {text : List Char}
    (unmarked : Unmarked text) {front back : List (List Char)} {segment : List Char}
    (split : text.splitOn ',' = front ++ segment :: back) :
    (∃ c, IsCell segment c) ↔
      ∀ d ∈ diagnostics name (Utf8.encode text), ¬ InSpan front segment d.position.offset := by
  obtain ⟨earlier, own, later, whole, before, judged, behind⟩ :=
    reported_split (.inl rfl) {} unmarked.visible split
  have start : (Position.advanceAll {} ((front.flatMap (· ++ [','])).map .char)).offset =
      (Utf8.encode (front.flatMap (· ++ [',']))).length := by
    rw [Position.offset_advanceAll_char, Nat.zero_add]
  have within := judged.within
  rw [start] at before behind within
  rw [diagnostics_eq, unmarked.faults_reading, whole, List.forall_mem_map, ← judged.exact]
  constructor
  · rintro rfl f member ⟨fromStart, toEnd⟩
    rw [List.append_nil] at member
    rcases List.mem_append.1 member with member | member
    · exact absurd fromStart (Nat.not_le.2 (before f member))
    · exact absurd toEnd (Nat.not_le.2 (behind f member))
  · intro outside
    refine List.eq_nil_iff_forall_not_mem.2 fun f member => outside f ?_ (within f member)
    exact List.mem_append_left _ (List.mem_append_right _ member)

/-- In a text that is cut at its commas, each segment that spells a cell is free of diagnostics, and
in each of the others there is one, whatever the other segments are. Those that spell a cell are
those that would be accepted alone. -/
theorem diagnostics_by_segment (name : String) {text : List Char} (unmarked : Unmarked text)
    {front back : List (List Char)} {segment : List Char}
    (split : text.splitOn ',' = front ++ segment :: back) :
    ((∃ c, IsCell segment c) →
      ∀ d ∈ diagnostics name (Utf8.encode text), ¬ InSpan front segment d.position.offset) ∧
    ((¬ ∃ c, IsCell segment c) →
      ∃ d ∈ diagnostics name (Utf8.encode text), InSpan front segment d.position.offset) ∧
    ((∃ c, IsCell segment c) ↔ ∃ memory, parse name (Utf8.encode segment) = .ok memory) := by
  obtain ⟨single, inText⟩ := split_segment split
  have spelled := isCell_iff_forall_diagnostics name unmarked split
  refine ⟨spelled.1, fun bad => ?_, ?_⟩
  · by_contra none
    exact bad (spelled.2 fun d member inside => none ⟨d, member, inside⟩)
  · exact (exists_parse_segment_iff name (fun c member => unmarked c (inText member)) single).symm

/-- A lone sign does not hide the cell behind its comma, nor do two numerals hide that before. -/
theorem diagnostics_by_segment_amid :
    let text := ['-', ',', ' ', '2', ' ', ',', '3', ' ', '4']
    (∃ d ∈ diagnostics "cells" (Utf8.encode text), InSpan [] ['-'] d.position.offset) ∧
    (∀ d ∈ diagnostics "cells" (Utf8.encode text),
      ¬ InSpan [['-']] [' ', '2', ' '] d.position.offset) ∧
    ∃ d ∈ diagnostics "cells" (Utf8.encode text),
      InSpan [['-'], [' ', '2', ' ']] ['3', ' ', '4'] d.position.offset := by
  intro text
  have unmarked : Unmarked text := by decide
  have magnitude : IsMagnitude false ([' '] ++ ['2'] ++ [' ']) 2 :=
    .intro (by decide) ⟨by decide, by simp, by decide⟩ (by decide) (by decide)
  have first : text.splitOn ',' = [] ++ ['-'] :: [[' ', '2', ' '], ['3', ' ', '4']] := by decide
  have second : text.splitOn ',' = [['-']] ++ [' ', '2', ' '] :: [['3', ' ', '4']] := by decide
  have third : text.splitOn ',' = [['-'], [' ', '2', ' ']] ++ ['3', ' ', '4'] :: [] := by decide
  obtain ⟨-, lone, signAlone⟩ := diagnostics_by_segment "cells" unmarked first
  obtain ⟨cell, -, -⟩ := diagnostics_by_segment "cells" unmarked second
  obtain ⟨-, double, twoAlone⟩ := diagnostics_by_segment "cells" unmarked third
  refine ⟨lone ?_, cell ⟨2, .unsigned magnitude⟩, double ?_⟩
  · rw [signAlone, exists_parse_eq_ok_iff]
    decide +kernel
  · rw [twoAlone, exists_parse_eq_ok_iff]
    decide +kernel

/-- A numeral between blanks, behind a sign or not, that is accepted without its sign. -/
def IsBareCell (name : String) (segment : List Char) : Prop :=
  ∃ before sign between digits after, IsBlank before ∧ sign ∈ [[], ['+'], ['-']] ∧
    IsBlank between ∧ (∀ c ∈ digits, c.isDigit) ∧ IsBlank after ∧
    (∃ memory, parse name (Utf8.encode digits) = .ok memory) ∧
    segment = before ++ sign ++ between ++ digits ++ after

private theorem IsBlank.filter_isDigit {blank : List Char} (isBlank : IsBlank blank) :
    blank.filter Char.isDigit = [] := by
  refine List.filter_eq_nil_iff.2 fun c member => ?_
  have listed := isBlank c member
  simp only [List.mem_cons, List.not_mem_nil, or_false] at listed
  rcases listed with rfl | rfl | rfl | rfl <;> decide

/-- The digits of such a segment are its numeral. -/
theorem IsBareCell.parse {name : String} {segment : List Char} (bare : IsBareCell name segment) :
    ∃ memory, parse name (Utf8.encode (segment.filter Char.isDigit)) = .ok memory := by
  obtain ⟨before, sign, between, digits, after, blankBefore, isSign, blankBetween, decimal,
    blankAfter, accepted, rfl⟩ := bare
  have signless : sign.filter Char.isDigit = [] := by
    simp only [List.mem_cons, List.not_mem_nil, or_false] at isSign
    rcases isSign with rfl | rfl | rfl <;> rfl
  have whole : digits.filter Char.isDigit = digits := List.filter_eq_self.2 decimal
  simpa only [List.filter_append, blankBefore.filter_isDigit, signless,
    blankBetween.filter_isDigit, whole, blankAfter.filter_isDigit, List.nil_append,
    List.append_nil] using accepted

/-- The numeral of the least cell is accepted behind its sign and not alone. -/
theorem least_cell_not_bare :
    ¬ ∀ (name : String) (text : List Char) (front back : List (List Char)) (segment : List Char),
      Unmarked text → text.splitOn ',' = front ++ segment :: back →
      (IsBareCell name segment →
        ∀ d ∈ diagnostics name (Utf8.encode text), ¬ InSpan front segment d.position.offset) ∧
      (¬ IsBareCell name segment →
        ∃ d ∈ diagnostics name (Utf8.encode text), InSpan front segment d.position.offset) := by
  intro always
  have unmarked : Unmarked "-9223372036854775808".toList := by decide
  have none : diagnostics "" (Utf8.encode "-9223372036854775808".toList) = [] := by decide +kernel
  have notBare : ¬ IsBareCell "" "-9223372036854775808".toList := fun bare =>
    absurd (exists_parse_eq_ok_iff.1 bare.parse) (by decide +kernel)
  obtain ⟨d, member, -⟩ := (always "" _ [] [] _ unmarked (by decide)).2 notBare
  rw [none] at member
  cases member

end CellMachine.Source
