import CellMachine.Memory.Dump
import CellMachine.Proofs.Source.Program

/-! # Dumps are read back

A sink is reliable when it never fails and keeps what it is given. A dump to a reliable sink
succeeds and leaves there the decimal texts of the cells with commas in between and a new line,
which is a program text of the same cells. A memory with at least one cell is thus read back from
its dump, and so is every memory that was read from a program text.
-/

namespace CellMachine

open Text

variable {σ : Type}

/-- A sink that never fails on a device that is ready and adds what it is given to a text. -/
structure Sink.Reliable (sink : Sink σ) (ready : σ → Prop) (text : σ → List UInt8) : Prop where
  failure_none : ∀ chunk device, ready device → (sink chunk device).1.failure = none
  stays_ready : ∀ chunk device, ready device → ready (sink chunk device).2
  text_append : ∀ chunk device, ready device → text (sink chunk device).2 = text device ++ chunk

namespace Sticky

variable {sink : Sink σ} {ready : σ → Prop} {text : σ → List UInt8}

private theorem write_of_reliable (reliable : sink.Reliable ready text) (chunk : List UInt8)
    {device : σ} (isReady : ready device) : ∃ count after, write sink chunk ⟨device, none⟩ =
      (⟨count, none⟩, ⟨after, none⟩) ∧ ready after ∧ text after = text device ++ chunk := by
  have failure := reliable.failure_none chunk device isReady
  have stays := reliable.stays_ready chunk device isReady
  have grows := reliable.text_append chunk device isReady
  rcases result : sink chunk device with ⟨⟨count, outcome⟩, after⟩
  simp only [result] at failure stays grows
  subst failure
  exact ⟨count, after, by simp [write, result], stays, grows⟩

/-- Chunks that never fail end up one behind the other. -/
theorem writeAll_of_reliable (reliable : sink.Reliable ready text) (chunks : List (List UInt8))
    {device : σ} (isReady : ready device) : ∃ after, writeAll sink chunks ⟨device, none⟩ =
      (none, ⟨after, none⟩) ∧ ready after ∧ text after = text device ++ chunks.flatten := by
  induction chunks generalizing device with
  | nil => exact ⟨device, rfl, isReady, by simp⟩
  | cons chunk chunks ih =>
    obtain ⟨count, middle, written, middleReady, first⟩ := write_of_reliable reliable chunk isReady
    obtain ⟨after, others, afterReady, last⟩ := ih middleReady
    refine ⟨after, ?_, afterReady, ?_⟩
    · rw [writeAll, written]
      exact others
    · rw [last, first, List.flatten_cons, List.append_assoc]

/-- The chunks of a row of cells make up their decimal texts with commas in between. -/
theorem flatten_cellChunks (cells : List Cell) :
    (cellChunks (Utf8.encode [',']) cells).flatten =
      Utf8.encode ([','].intercalate (cells.map Decimal.ofCell)) := by
  cases cells with
  | nil => rfl
  | cons c cells =>
    rw [List.map_cons, Source.intercalate_cons, cellChunks, List.flatten_cons, Utf8.encode_append]
    congr 1
    induction cells with
    | nil => rfl
    | cons next cells ih =>
      rw [List.map_cons, List.flatten_cons, ih, List.map_cons, List.flatMap_cons,
        Utf8.encode_append, ← Utf8.encode_append, List.singleton_append]

end Sticky

namespace Source

private theorem isNumeral_ofNat (n : Nat) : IsNumeral (Decimal.ofNat n) where
  nonempty := Nat.toDigits_ne_nil
  decimal _ member := Nat.isDigit_of_mem_toDigits (by decide) (by decide) member
  octal several zero := by
    rcases Nat.eq_zero_or_pos n with rfl | positive
    · exact absurd several (by decide)
    · exact absurd zero (Decimal.head?_ofNat positive)

/-- The decimal text of a cell is one of its spellings. -/
theorem isCell_ofCell (c : Cell) : IsCell (Decimal.ofCell c) c := by
  have magnitude {negative : Bool}
      (number : c.toInt = if negative then -(c.toInt.natAbs : Int) else c.toInt.natAbs) :
      IsMagnitude negative (Decimal.ofNat c.toInt.natAbs) c := by
    have value : c.toInt = Numeral.value negative (Decimal.ofNat c.toInt.natAbs) := by
      rw [Numeral.value, Decimal.ofNat, Nat.ofDigitChars_toDigits (by decide) (by decide)]
      exact number
    simpa using IsMagnitude.intro IsBlank.nil (isNumeral_ofNat c.toInt.natAbs) IsBlank.nil value
  unfold Decimal.ofCell Decimal.ofInt
  split
  case isTrue less => exact .signed true IsBlank.nil (magnitude (by rw [if_pos rfl]; omega))
  case isFalse notLess => exact .unsigned (magnitude (by rw [if_neg (by decide)]; omega))

end Source

/-- The outlets that have not failed, on a device that is ready. -/
def Outlet.Ready (ready : σ → Prop) (outlet : Outlet σ) : Prop :=
  outlet.guarded.failure = none ∧ ready outlet.guarded.device

namespace Memory

def dumpText (m : Memory) : List Char :=
  [','].intercalate (m.toList.map Decimal.ofCell) ++ ['\n']

/-- The text of a dump spells the cells of the memory. -/
theorem spells_dumpText {m : Memory} (nonempty : m.toList ≠ []) :
    Source.Spells m.dumpText m.toList := by
  obtain ⟨c, cells, shape⟩ := List.exists_cons_of_ne_nil nonempty
  have spelled : List.Forall₂ Source.IsCell (cells.map Decimal.ofCell) cells := by
    rw [List.forall₂_map_left_iff]
    exact List.forall₂_same.2 fun c _ => Source.isCell_ofCell c
  have parsed : Source.Parses .program m.dumpText m.toList := by
    rw [dumpText, shape, List.map_cons, Source.intercalate_cons, List.append_assoc]
    exact (Source.isCell_ofCell c).parses (.inl rfl) (Source.parses_comma spelled (by decide))
  obtain ⟨pieces, present, written, whole⟩ := Source.parses_program_iff.1 parsed
  exact ⟨pieces, present, written, .inl whole⟩

/-- A dump succeeds and adds the given bytes to the text of the device. -/
def Dumps (sink : Sink σ) (text : σ → List UInt8) (m : Memory) (outlet : Outlet σ)
    (written : List UInt8) : Prop :=
  ∃ after, m.dump sink outlet.guarded = (none, ⟨after, none⟩) ∧
    text after = text outlet.guarded.device ++ written

variable {sink : Sink σ} {ready : σ → Prop} {text : σ → List UInt8}

/-- A reliable sink is given the text of the dump. -/
theorem dumps_dumpText (reliable : sink.Reliable ready text) (m : Memory) {outlet : Outlet σ}
    (isReady : outlet.Ready ready) : m.Dumps sink text outlet (Utf8.encode m.dumpText) := by
  obtain ⟨notFailed, deviceReady⟩ := isReady
  have same : outlet.guarded = ⟨outlet.guarded.device, none⟩ := by rw [← notFailed]
  obtain ⟨middle, cells, middleReady, first⟩ := Sticky.writeAll_of_reliable reliable
    (Sticky.cellChunks (Utf8.encode [',']) m.toList) deviceReady
  obtain ⟨count, after, newLine, -, last⟩ := Sticky.write_of_reliable reliable
    (Utf8.encode ['\n']) middleReady
  refine ⟨after, ?_, ?_⟩
  · rw [same, dump, Sticky.writeCells, cells]
    simp only [newLine]
  · rw [last, first, Sticky.flatten_cellChunks, dumpText, Utf8.encode_append, List.append_assoc]

/-- The text of a dump is read as the memory. -/
theorem parse_dumpText (name : String) {m : Memory} (nonempty : m.toList ≠ []) :
    Source.parse name (Utf8.encode m.dumpText) = .ok m :=
  Source.parse_of_spells name (spells_dumpText nonempty)

/-- A memory with a cell is read back from its dump; a memory that was read from a program text is
read back too, and its dump after that is the same as before. -/
theorem dump_roundtrip (reliable : sink.Reliable ready text) (name : String) :
    (∀ m : Memory, m.toList ≠ [] → ∀ outlet : Outlet σ, outlet.Ready ready →
      ∃ written, m.Dumps sink text outlet written ∧ Source.parse name written = .ok m) ∧
    ∀ source m, Source.parse name source = .ok m → ∀ outlet : Outlet σ, outlet.Ready ready →
      ∃ written, m.Dumps sink text outlet written ∧
        ∃ again, Source.parse name written = .ok again ∧ again = m ∧
          ∀ other : Outlet σ, other.Ready ready → again.Dumps sink text other written := by
  constructor
  · intro m nonempty outlet isReady
    exact ⟨_, dumps_dumpText reliable m isReady, parse_dumpText name nonempty⟩
  · intro source m success outlet isReady
    have nonempty := Source.toList_ne_nil_of_parse success
    refine ⟨_, dumps_dumpText reliable m isReady, m, parse_dumpText name nonempty, rfl, ?_⟩
    intro other otherReady
    exact dumps_dumpText reliable m otherReady

end Memory

/-- A recorder that refuses no call is reliable. -/
theorem Recorder.reliable_write :
    Recorder.write.Reliable (fun r => r.refuse = none) (fun r => r.bytes.toList) where
  failure_none _ r willing := by simp [Recorder.write, willing]
  stays_ready _ r willing := by simp [Recorder.write, willing]
  text_append _ r willing := by simp [Recorder.write, willing]

/-- The least cell, zero and the greatest cell, dumped to an empty recorder and then to one behind a
sticky writer. -/
theorem Memory.dump_roundtrip_extremes :
    let m := Memory.ofList [Int64.minValue, 0, Int64.maxValue]
    let text := fun r : Recorder => r.bytes.toList
    ∃ source, m.Dumps Recorder.write text (.plain {}) source ∧
      Source.parse "dump" source = .ok m ∧
      ∃ written, m.Dumps Recorder.write text (.sticky { device := {} }) written ∧
        ∃ again, Source.parse "dump" written = .ok again ∧ again = m ∧
          again.Dumps Recorder.write text (.plain {}) written := by
  intro m text
  obtain ⟨readBack, stable⟩ := Memory.dump_roundtrip Recorder.reliable_write "dump"
  obtain ⟨source, dumped, parsed⟩ := readBack m (by decide) (.plain {}) ⟨rfl, rfl⟩
  obtain ⟨written, dumpedAgain, again, parsedAgain, same, third⟩ :=
    stable source m parsed (.sticky { device := {} }) ⟨rfl, rfl⟩
  exact ⟨source, dumped, parsed, written, dumpedAgain, again, parsedAgain, same,
    third (.plain {}) ⟨rfl, rfl⟩⟩

end CellMachine
