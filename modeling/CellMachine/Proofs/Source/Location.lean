import CellMachine.Proofs.Source.Report
import Mathlib.Data.List.DropRight

/-! # Diagnostics are located in the text

A position is that of a place in a byte string when its line and column are those counted there:
the line by the line feeds in front of the place, the column by the symbols since the last of them.
Wherever a diagnostic comes from, from a symbol that may not be there, from the spelling of a
numeral or from the reader, its position is that of a place between two symbols of the text, and the
diagnostics are in the order of their places.
-/

namespace CellMachine.Source

open Text

namespace Position

/-- The position is that of a place in a byte string, where no symbol is cut in two. -/
structure Locates (text : List UInt8) (p : Position) : Prop where
  inside : p.offset ≤ text.length
  /-- The line feeds before the place, counted from one. -/
  line : p.line = 1 + (text.take p.offset).count 0x0a
  /-- The symbols between the last of these line feeds and the place, counted from one. -/
  column : p.column = 1 + (Utf8.decode ((text.take p.offset).rtakeWhile (· != 0x0a))).length
  between : Utf8.decode text =
    Utf8.decode (text.take p.offset) ++ Utf8.decode (text.drop p.offset)

/-! ## Lines and columns in symbols -/

theorem advanceAll_concat (p : Position) (symbols : List Symbol) (s : Symbol) :
    p.advanceAll (symbols ++ [s]) = (p.advanceAll symbols).advance s := by
  rw [advanceAll_append]
  rfl

private theorem line_advanceAll (symbols : List Symbol) :
    (advanceAll {} symbols).line = 1 + symbols.countP (·.is '\n') := by
  induction symbols using List.reverseRecOn with
  | nil => rfl
  | append_singleton symbols s ih =>
    rw [advanceAll_concat, advance, List.countP_append, List.countP_singleton, ← Nat.add_assoc,
      ← ih]
    split
    · rfl
    · rfl

private theorem column_advanceAll (symbols : List Symbol) :
    (advanceAll {} symbols).column = 1 + (symbols.rtakeWhile (! ·.is '\n')).length := by
  induction symbols using List.reverseRecOn with
  | nil => rfl
  | append_singleton symbols s ih =>
    rw [advanceAll_concat, advance, List.rtakeWhile_concat]
    split
    case isTrue lineFeed => simp [lineFeed]
    case isFalse other =>
      rw [if_pos (by simpa using other), List.length_append, List.length_singleton,
        ← Nat.add_assoc, ← ih]

end Position

/-! ## Line feeds in bytes -/

theorem bytes_lineFeed {s : Symbol} (lineFeed : s.is '\n') : s.bytes = [0x0a] := by
  cases s with
  | bad byte => cases lineFeed
  | char c =>
    obtain rfl := beq_iff_eq.1 lineFeed
    rfl

/-- The byte of a line feed occurs in no other symbol. -/
theorem lineFeed_not_mem_bytes {symbols : List Symbol} (back : Utf8.ReadBack symbols) {s : Symbol}
    (member : s ∈ symbols) (other : ¬ s.is '\n') : 0x0a ∉ s.bytes := by
  intro present
  cases s with
  | bad byte =>
    obtain rfl := List.mem_singleton.1 present
    exact absurd (back.le_of_mem_bad member) (by decide)
  | char c =>
    rcases Nat.lt_or_ge c.toNat 0x80 with narrow | wide
    · rw [Symbol.bytes, Utf8.encodeChar, if_pos narrow, List.mem_singleton, eq_comm,
        Utf8.toUInt8_eq_iff, Nat.mod_eq_of_lt (by omega)] at present
      exact other (beq_iff_eq.2 (Char.toNat_inj.1 present))
    · exact absurd (Utf8.le_of_mem_encodeChar wide present) (by decide)

/-- Line feeds are counted alike in symbols and in bytes. -/
theorem count_lineFeed {symbols : List Symbol} (back : Utf8.ReadBack symbols) :
    (symbols.flatMap Symbol.bytes).count 0x0a = symbols.countP (·.is '\n') := by
  induction symbols using List.reverseRecOn with
  | nil => rfl
  | append_singleton symbols s ih =>
    rw [List.flatMap_append, List.count_append, List.flatMap_singleton, ih back.of_append.1,
      List.countP_append, List.countP_singleton]
    split
    case isTrue lineFeed => rw [bytes_lineFeed lineFeed, List.count_singleton_self]
    case isFalse other =>
      rw [List.count_eq_zero.2 (lineFeed_not_mem_bytes back (by simp) other)]

/-- The last line in bytes is that in symbols. -/
theorem rtakeWhile_lineFeed {symbols : List Symbol} (back : Utf8.ReadBack symbols) :
    (symbols.flatMap Symbol.bytes).rtakeWhile (· != 0x0a) =
      (symbols.rtakeWhile (! ·.is '\n')).flatMap Symbol.bytes := by
  induction symbols using List.reverseRecOn with
  | nil => rfl
  | append_singleton symbols s ih =>
    rw [List.flatMap_append, List.flatMap_singleton, List.rtakeWhile_concat]
    split
    case isTrue other =>
      have absent : 0x0a ∉ s.bytes := lineFeed_not_mem_bytes back (by simp) (by simpa using other)
      have kept : ∀ byte ∈ s.bytes.reverse, byte != 0x0a := by
        intro byte member
        rw [bne_iff_ne]
        rintro rfl
        exact absent (List.mem_reverse.1 member)
      rw [List.flatMap_append, List.flatMap_singleton, ← ih back.of_append.1, List.rtakeWhile,
        List.reverse_append, List.takeWhile_append_of_pos kept, List.reverse_append,
        List.reverse_reverse, List.rtakeWhile]
    case isFalse lineFeed =>
      rw [bytes_lineFeed (by simpa using lineFeed), List.rtakeWhile_concat]
      rfl

/-! ## Places in a text -/

/-- The position behind the first symbols of a text is that of their end. -/
theorem locates_advanceAll {text : List UInt8} {front back : List Symbol}
    (decoded : Utf8.decode text = front ++ back) : (Position.advanceAll {} front).Locates text := by
  have whole : Utf8.ReadBack (front ++ back) := decoded ▸ Utf8.readBack_decode text
  obtain ⟨first, last⟩ := whole.of_append
  have cut : text = front.flatMap Symbol.bytes ++ back.flatMap Symbol.bytes := by
    rw [← List.flatMap_append, ← decoded, Utf8.flatMap_bytes_decode]
  have offset : (Position.advanceAll {} front).offset = (front.flatMap Symbol.bytes).length := by
    rw [Position.offset_advanceAll, Nat.zero_add]
  have before : text.take (Position.advanceAll {} front).offset = front.flatMap Symbol.bytes := by
    rw [offset, cut, List.take_left]
  have behind : text.drop (Position.advanceAll {} front).offset = back.flatMap Symbol.bytes := by
    rw [offset, cut, List.drop_left]
  refine ⟨?_, ?_, ?_, ?_⟩
  · rw [offset, cut, List.length_append]
    exact Nat.le_add_right ..
  · rw [before, count_lineFeed first, Position.line_advanceAll]
  · have suffix : Utf8.ReadBack (front.rtakeWhile (! ·.is '\n')) := by
      rw [← List.rdropWhile_append_rtakeWhile (p := (! ·.is '\n')) (l := front)] at first
      exact first.of_append.2
    rw [before, rtakeWhile_lineFeed first, suffix, Position.column_advanceAll]
  · rw [before, behind, first, last, decoded]

/-- A rejected text is rejected with diagnostics of the given name, each of them located in the text
and all of them in the order of the text. -/
theorem diagnostics_located {name : String} {text : List UInt8} {f : Failure}
    (rejected : parse name text = .error f) :
    ∃ diagnostics, f = ⟨.faultySource diagnostics, []⟩ ∧ diagnostics ≠ [] ∧
      (∀ d ∈ diagnostics, d.file = name ∧ d.position.Locates text) ∧
        diagnostics.Pairwise fun d e => d.position.offset ≤ e.position.offset := by
  simp only [parse] at rejected
  split at rejected
  case isTrue => cases rejected
  case isFalse faulty =>
    cases rejected
    have own : ∀ t ∈ Token.scan (Utf8.decode text), ∀ f ∈ t.faults, f.position = t.position :=
      fun t member => (Token.scan_standsIn _ t member).2
    refine ⟨_, rfl, by simpa using faulty, ?_, ?_⟩
    · intro d member
      rw [faults_reading] at member
      obtain ⟨f, reported, rfl⟩ := List.mem_map.1 member
      refine ⟨rfl, ?_⟩
      obtain ⟨t, scanned, place⟩ := Expectation.position_of_mem_reported own reported
      obtain ⟨⟨front, ⟨back, whole⟩, stands⟩, -⟩ := Token.scan_standsIn _ t scanned
      rw [place, stands]
      exact locates_advanceAll whole.symm
    · rw [faults_reading, List.pairwise_map]
      exact Expectation.pairwise_reported own (Token.scan_sorted _)

/-- A byte order mark is a column, and so is a letter of two bytes and a byte that is no symbol. -/
theorem diagnostics_located_marked :
    let text : List UInt8 := [0xef, 0xbb, 0xbf, 0xc3, 0xa9, 0xff, 0x2c, 0x2c, 0x0a]
    let found : List Diagnostic :=
      [⟨"marked", ⟨3, 1, 2⟩, .invalidEncoding⟩, ⟨"marked", ⟨3, 1, 2⟩, .expectedInteger [.char 'é']⟩,
        ⟨"marked", ⟨7, 1, 5⟩, .expectedInteger [.char ',']⟩,
        ⟨"marked", ⟨9, 2, 1⟩, .unexpectedEnd⟩]
    parse "marked" text = .error ⟨.faultySource found, []⟩ ∧
      (∀ d ∈ found, d.file = "marked" ∧ d.position.Locates text) ∧
        found.Pairwise fun d e => d.position.offset ≤ e.position.offset := by
  intro text found
  have rejected : parse "marked" text = .error ⟨.faultySource found, []⟩ := by
    decide +kernel
  obtain ⟨diagnostics, same, -, located, sorted⟩ := diagnostics_located rejected
  cases same
  exact ⟨rejected, located, sorted⟩

end CellMachine.Source
