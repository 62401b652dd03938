import CellMachine.Proofs.Source.Reading
import CellMachine.Proofs.Source.Scan
import CellMachine.Proofs.Text.Utf8

/-! # What is reported, and where

What a reader reports at a token depends on what it expects there and on nothing that was read or
reported before. The faults reported over a text are thus those of its tokens, one token after the
other. A token stands at the position of what is in front of it in the text, and all that is
reported at a token is reported at the start of that token.
-/

namespace CellMachine.Source

open Text

/-! ## Positions in a text -/

namespace Position

theorem advanceAll_append (p : Position) (front back : List Symbol) :
    p.advanceAll (front ++ back) = (p.advanceAll front).advanceAll back :=
  List.foldl_append

private theorem offset_advance (p : Position) (s : Symbol) :
    (p.advance s).offset = p.offset + s.width := by
  unfold advance
  split <;> rfl

theorem offset_advanceAll (p : Position) (symbols : List Symbol) :
    (p.advanceAll symbols).offset = p.offset + (symbols.flatMap Symbol.bytes).length := by
  induction symbols generalizing p with
  | nil => rfl
  | cons s symbols ih =>
    have first : p.advanceAll (s :: symbols) = (p.advance s).advanceAll symbols := rfl
    rw [first, ih, offset_advance, List.flatMap_cons, List.length_append, Utf8.length_bytes,
      Nat.add_assoc]

end Position

/-! ## Tokens and their positions -/

namespace Token

variable {position : Position} {before : List Fault} {s : Symbol} {rest : List Symbol} {f : Fault}

private theorem position_of_mem_lookAhead {text : List Symbol}
    (member : f ∈ lookAhead position text) :
    f.position = position := by
  cases text with
  | nil => cases member
  | cons s text =>
    obtain ⟨complaint, -, rfl⟩ := List.mem_map.1 member
    rfl

/-- Layout is never forbidden. -/
theorem lookAhead_layout {s : Symbol} (layout : isLayout s) :
    lookAhead position (s :: rest) = [] := by
  cases s with
  | bad byte => cases layout
  | char c =>
    have listed := isLayout_char.1 layout
    simp only [List.mem_cons, List.not_mem_nil, or_false] at listed
    rcases listed with rfl | rfl | rfl | rfl <;> rfl

private theorem cut_position : (cut position before s rest).position = position := by
  rw [cut]
  split
  · rfl
  · rfl

private theorem mem_cut_faults (member : f ∈ (cut position before s rest).faults) :
    f ∈ before ∨ f.position = position := by
  rw [cut] at member
  split at member
  · simp only [List.mem_append, List.mem_map] at member
    obtain (member | member) | ⟨complaint, -, rfl⟩ := member
    · exact .inl member
    · exact .inr (position_of_mem_lookAhead member)
    · exact .inr rfl
  · rcases List.mem_append.1 member with member | member
    · exact .inl member
    · exact .inr (position_of_mem_lookAhead member)

/-- The token stands behind some of the text, and its faults are those of its start. -/
def StandsIn (position : Position) (text : List Symbol) (t : Token) : Prop :=
  (∃ front, front <+: text ∧ t.position = position.advanceAll front) ∧
    ∀ f ∈ t.faults, f.position = t.position

/-- A token of the rest of a text stands in the text. -/
theorem StandsIn.of_rest {front text : List Symbol} {t : Token}
    (stands : t.StandsIn (position.advanceAll front) text) :
    t.StandsIn position (front ++ text) := by
  obtain ⟨⟨more, isFront, place⟩, own⟩ := stands
  refine ⟨⟨front ++ more, (List.prefix_append_right_inj front).2 isFront, ?_⟩, own⟩
  rw [place, Position.advanceAll_append]

theorem StandsIn.offset_le {text : List Symbol} {t : Token} (stands : t.StandsIn position text) :
    position.offset ≤ t.position.offset ∧
      t.position.offset ≤ (position.advanceAll text).offset := by
  obtain ⟨⟨front, ⟨back, rfl⟩, place⟩, -⟩ := stands
  simp only [place, Position.advanceAll_append, Position.offset_advanceAll]
  omega

/-- What was found before the first token was found at the front of the text, and so it is
reported at the start of that token. -/
theorem cut_standsIn {blank : List Char} (isBlank : IsBlank blank)
    (found : ∀ f ∈ before, f ∈ lookAhead position (blank.map .char ++ s :: rest)) :
    let start := position.advanceAll (blank.map .char)
    (cut start (if blank.isEmpty then before else before ++ lookAhead start (s :: rest)) s
      rest).StandsIn position (blank.map .char ++ s :: rest) := by
  intro start
  refine ⟨⟨blank.map .char, List.prefix_append .., cut_position⟩, fun f member => ?_⟩
  rw [cut_position]
  rcases mem_cut_faults member with member | place
  · cases blank with
    | nil => exact position_of_mem_lookAhead (found f member)
    | cons c blank =>
      have layout : isLayout (.char c) := isLayout_char.2 (isBlank c (by simp))
      rcases List.mem_append.1 member with member | member
      · have nothing := found f member
        rw [List.map_cons, List.cons_append, lookAhead_layout layout] at nothing
        cases nothing
      · exact position_of_mem_lookAhead member
  · exact place

/-- The tokens of a text stand in it. -/
theorem scanFrom_standsIn {text : List Symbol} (found : ∀ f ∈ before, f ∈ lookAhead position text) :
    ∀ t ∈ scanFrom position before text, t.StandsIn position text := by
  induction text using text_induction generalizing position before with
  | blank blank isBlank =>
    rw [scanFrom_blank isBlank]
    intro t member
    obtain rfl := List.mem_singleton.1 member
    refine ⟨⟨_, List.prefix_rfl, rfl⟩, fun f member => ?_⟩
    have ahead := found f member
    cases blank with
    | nil => cases ahead
    | cons c blank =>
      rw [List.map_cons, lookAhead_layout (isLayout_char.2 (isBlank c (by simp)))] at ahead
      cases ahead
  | symbol blank s rest isBlank notLayout ih =>
    rw [scanFrom_symbol isBlank notLayout]
    refine List.forall_mem_cons.2 ⟨cut_standsIn isBlank found, fun t member => ?_⟩
    have stands := ih (by simp) t member
    rw [← Position.advanceAll_append] at stands
    simpa using stands.of_rest

/-- The tokens of a text stand one behind the other. -/
theorem scanFrom_sorted {text : List Symbol} (found : ∀ f ∈ before, f ∈ lookAhead position text) :
    (scanFrom position before text).Pairwise fun t u => t.position.offset ≤ u.position.offset := by
  induction text using text_induction generalizing position before with
  | blank blank isBlank =>
    rw [scanFrom_blank isBlank]
    exact List.pairwise_singleton ..
  | symbol blank s rest isBlank notLayout ih =>
    rw [scanFrom_symbol isBlank notLayout]
    refine List.pairwise_cons.2 ⟨fun t member => ?_, ih (by simp)⟩
    have behind := (scanFrom_standsIn (by simp) t member).offset_le.1
    rw [Position.offset_advanceAll] at behind
    rw [cut_position]
    exact Nat.le_of_add_right_le behind

/-- The tokens of a program text stand in it, a byte order mark included. -/
theorem scan_standsIn (text : List Symbol) : ∀ t ∈ scan text, t.StandsIn {} text := by
  rw [scan.eq_def]
  split
  · intro t member
    have stands := scanFrom_standsIn (fun _ found => found) t member
    exact @StandsIn.of_rest {} [.char '\ufeff'] _ _ stands
  · exact scanFrom_standsIn fun _ found => found

theorem scan_sorted (text : List Symbol) :
    (scan text).Pairwise fun t u => t.position.offset ≤ u.position.offset := by
  rw [scan.eq_def]
  split
  · exact scanFrom_sorted fun _ found => found
  · exact scanFrom_sorted fun _ found => found

end Token

/-! ## What a reader reports -/

namespace Reading

def behind (r earlier : Reading) : Reading :=
  { r with cells := earlier.cells ++ r.cells, faults := earlier.faults ++ r.faults }

private theorem numeral_behind (r earlier : Reading) (negative : Bool) (t : Token) :
    (r.behind earlier).numeral negative t = (r.numeral negative t).behind earlier := by
  unfold numeral
  split
  · dsimp only
    split <;> simp [behind, complain]
  · simp [behind, complain]

private theorem cell_behind (r earlier : Reading) (t : Token) :
    (r.behind earlier).cell t = (r.cell t).behind earlier := by
  unfold cell
  split
  · rfl
  split
  · rfl
  · exact numeral_behind ..

private theorem accept_behind (r earlier : Reading) (t : Token) :
    (r.behind earlier).accept t = (r.accept t).behind earlier := by
  have same : (r.behind earlier).expected = r.expected := rfl
  unfold accept
  rw [same]
  cases r.expected with
  | program | cell =>
    dsimp only
    split
    · simp [behind, complain]
    · exact cell_behind ..
  | numeral negative => exact numeral_behind ..
  | comma =>
    dsimp only
    split
    · rfl
    split
    · rfl
    · simp [behind, complain]
  | resumption => rfl

/-- What was read and reported before has no bearing on how a token is read. -/
theorem read_behind (r earlier : Reading) (t : Token) :
    (r.behind earlier).read t = (r.read t).behind earlier := by
  rw [read, read, ← accept_behind]
  simp [behind]

private theorem numeral_faults (r : Reading) (negative : Bool) (t : Token) :
    (r.numeral negative t).faults = r.faults ∨
      ∃ complaint, (r.numeral negative t).faults = r.faults.push ⟨t.position, complaint⟩ := by
  unfold numeral
  split
  · dsimp only
    split
    · exact .inl rfl
    · exact .inr ⟨_, rfl⟩
  · exact .inr ⟨_, rfl⟩

private theorem cell_faults (r : Reading) (t : Token) : (r.cell t).faults = r.faults ∨
    ∃ complaint, (r.cell t).faults = r.faults.push ⟨t.position, complaint⟩ := by
  unfold cell
  split
  · exact .inl rfl
  split
  · exact .inl rfl
  · exact numeral_faults ..

/-- At most one complaint is made about a token, at its start. -/
theorem accept_faults (r : Reading) (t : Token) : (r.accept t).faults = r.faults ∨
    ∃ complaint, (r.accept t).faults = r.faults.push ⟨t.position, complaint⟩ := by
  unfold accept
  cases r.expected with
  | program | cell =>
    dsimp only
    split
    · exact .inr ⟨_, rfl⟩
    · exact cell_faults r t
  | numeral negative => exact numeral_faults r negative t
  | comma =>
    dsimp only
    split
    · exact .inl rfl
    split
    · exact .inl rfl
    · exact .inr ⟨_, rfl⟩
  | resumption => exact .inl rfl

private theorem read_faults (r : Reading) (t : Token) :
    (r.read t).faults = r.faults ++ t.faults.toArray ∨
    ∃ complaint, (r.read t).faults =
      (r.faults ++ t.faults.toArray).push ⟨t.position, complaint⟩ :=
  accept_faults { r with faults := r.faults ++ t.faults.toArray } t

end Reading

namespace Expectation

def after (e : Expectation) (t : Token) : Expectation :=
  ((Reading.clean e []).read t).expected

def reports (e : Expectation) (t : Token) : List Fault :=
  ((Reading.clean e []).read t).faults.toList

def reported : Expectation → List Token → List Fault
  | _, [] => []
  | e, t :: tokens => e.reports t ++ (e.after t).reported tokens

variable {e : Expectation} {tokens : List Token}

theorem reported_append (front back : List Token) :
    e.reported (front ++ back) = e.reported front ++ (front.foldl after e).reported back := by
  induction front generalizing e with
  | nil => rfl
  | cons t front ih => simp [reported, ih]

private theorem position_of_mem_reports {t : Token} {f : Fault}
    (own : ∀ f ∈ t.faults, f.position = t.position) (member : f ∈ e.reports t) :
    f.position = t.position := by
  unfold reports at member
  rcases Reading.read_faults (.clean e []) t with faults | ⟨complaint, faults⟩
  · rw [faults] at member
    exact own f (by simpa [Reading.clean] using member)
  · rw [faults] at member
    simp only [Reading.clean, Array.empty_append, Array.toList_push, List.mem_append,
      List.mem_singleton] at member
    rcases member with member | rfl
    · exact own f member
    · rfl

/-- All that is reported is reported at the start of a token. -/
theorem position_of_mem_reported {f : Fault}
    (own : ∀ t ∈ tokens, ∀ f ∈ t.faults, f.position = t.position) (member : f ∈ e.reported tokens) :
    ∃ t ∈ tokens, f.position = t.position := by
  induction tokens generalizing e with
  | nil => cases member
  | cons t tokens ih =>
    obtain ⟨first, others⟩ := List.forall_mem_cons.1 own
    rcases List.mem_append.1 member with member | member
    · exact ⟨t, List.mem_cons_self, position_of_mem_reports first member⟩
    · obtain ⟨u, inRest, place⟩ := ih others member
      exact ⟨u, List.mem_cons_of_mem _ inRest, place⟩

/-- What is reported over tokens in the order of the text is in the order of the text. -/
theorem pairwise_reported (own : ∀ t ∈ tokens, ∀ f ∈ t.faults, f.position = t.position)
    (sorted : tokens.Pairwise fun t u => t.position.offset ≤ u.position.offset) :
    (e.reported tokens).Pairwise fun f g => f.position.offset ≤ g.position.offset := by
  induction tokens generalizing e with
  | nil => exact .nil
  | cons t tokens ih =>
    obtain ⟨first, others⟩ := List.forall_mem_cons.1 own
    obtain ⟨before, sorted⟩ := List.pairwise_cons.1 sorted
    refine List.pairwise_append.2 ⟨?_, ih others sorted, ?_⟩
    · refine List.pairwise_of_forall_mem_list fun f inFirst g inFirstToo => ?_
      rw [position_of_mem_reports first inFirst, position_of_mem_reports first inFirstToo]
    · intro f inFirst g inRest
      obtain ⟨u, member, place⟩ := position_of_mem_reported others inRest
      rw [position_of_mem_reports first inFirst, place]
      exact before u member

end Expectation

namespace Reading

private theorem read_eq (r : Reading) (t : Token) :
    (r.read t).expected = r.expected.after t ∧
      (r.read t).faults.toList = r.faults.toList ++ r.expected.reports t := by
  have start : r = (clean r.expected []).behind r := by simp [behind, clean]
  rw [start, read_behind]
  exact ⟨rfl, by simp [behind, Expectation.reports, clean]⟩

/-- Reading tokens adds what is reported over them to what was reported before. -/
theorem foldl_read_faults (r : Reading) (tokens : List Token) :
    (tokens.foldl read r).faults.toList = r.faults.toList ++ r.expected.reported tokens := by
  induction tokens generalizing r with
  | nil => simp [Expectation.reported]
  | cons t tokens ih =>
    obtain ⟨expected, faults⟩ := read_eq r t
    rw [List.foldl_cons, ih, expected, faults, List.append_assoc, Expectation.reported]

end Reading

/-- The faults of a program text are those that are reported over its tokens. -/
theorem faults_reading (text : List UInt8) :
    (reading text).faults.toList = Expectation.program.reported (Token.scan (Utf8.decode text)) :=
  Reading.foldl_read_faults {} _

end CellMachine.Source
