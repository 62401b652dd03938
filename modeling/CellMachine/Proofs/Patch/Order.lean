import CellMachine.Proofs.Console.Session
import CellMachine.Proofs.Machine.Failing
import CellMachine.Proofs.Memory.Address
import CellMachine.Proofs.Patch
import CellMachine.Proofs.Text.Numeral
import Mathlib.Data.List.Nodup
import Mathlib.Logic.Function.Basic

/-! # Patches in any order

The patches of a run are the entries of a map from addresses to values, and they are written in some
order. Writes at different addresses do not disturb each other, so in whatever order they are made
they leave the memory with exactly these cells replaced, and if one of them is outside the memory
they fail in every order. A patched run is thus a run on the memory with the cells replaced.
-/

namespace CellMachine

/-- The memory with the cells replaced for which a map has entries. -/
def Memory.overlay (m : Memory) (entries : Cell → Option Cell) : Memory :=
  ⟨m.cells.mapIdx fun place value => ((Cell.ofInt? place).bind entries).getD value⟩

/-- The entries of a map in some order: each of them once, and nothing else. -/
structure Patch.Visits (entries : Cell → Option Cell) (order : List Patch) : Prop where
  nodup : order.Nodup
  mem_iff : ∀ patch, patch ∈ order ↔ entries patch.address = some patch.value

/-! ## Writing the patches -/

namespace Memory

variable {m written : Memory} {address value : Cell} {entries : Cell → Option Cell}

theorem size_overlay (m : Memory) (entries : Cell → Option Cell) :
    (m.overlay entries).size = m.size :=
  Array.size_mapIdx

theorem getElem?_overlay (m : Memory) (entries : Cell → Option Cell) (place : Nat) :
    (m.overlay entries).cells[place]? =
      m.cells[place]?.map fun value => ((Cell.ofInt? place).bind entries).getD value :=
  Array.getElem?_mapIdx

/-- Memories with the same cells at all places are the same. -/
theorem ext_cells {m other : Memory} (same : ∀ place : Nat, m.cells[place]? = other.cells[place]?) :
    m = other :=
  congrArg Memory.mk (Array.ext_getElem? same)

theorem overlay_none (m : Memory) : (m.overlay fun _ => none) = m :=
  ext_cells fun place => by simp [getElem?_overlay]

/-- Replacing a cell first and the others later is replacing all of them at once. -/
theorem overlay_write (stored : m.write address value = .ok written)
    (entry : entries address = some value) :
    written.overlay (Function.update entries address none) = m.overlay entries := by
  have inside := contains_of_write stored
  have nonneg : 0 ≤ address.toInt := Int64.le_iff_toInt_le.mp inside.1
  have own : Cell.ofInt? address.toNatClampNeg = some address :=
    Cell.ofInt?_eq_some.mpr (Int.toNat_of_nonneg nonneg).symm
  rw [write, dif_pos inside] at stored
  cases stored
  refine ext_cells fun place => ?_
  rw [getElem?_overlay, getElem?_overlay]
  by_cases here : place = address.toNatClampNeg
  · subst here
    rw [Array.getElem?_set_self inside.2, Array.getElem?_eq_getElem inside.2]
    simp [own, entry]
  · rw [Array.getElem?_set_ne inside.2 (Ne.symm here)]
    cases found : Cell.ofInt? place with
    | none => rfl
    | some cell =>
      have elsewhere : cell ≠ address := by
        rintro rfl
        rw [Cell.ofInt?_eq_some] at own found
        omega
      simp [Function.update_of_ne elsewhere]

end Memory

namespace Patch

variable {memory : Memory} {entries : Cell → Option Cell} {patch : Patch} {order : List Patch}

/-- What is left to visit are the entries at other addresses. -/
theorem Visits.rest (visits : Visits entries (patch :: order)) :
    Visits (Function.update entries patch.address none) order where
  nodup := visits.nodup.of_cons
  mem_iff other := by
    by_cases same : other.address = patch.address
    · rw [same, Function.update_self]
      refine iff_of_false (fun member => ?_) nofun
      have entry := (visits.mem_iff patch).mp List.mem_cons_self
      have entryToo := (visits.mem_iff other).mp (List.mem_cons_of_mem _ member)
      rw [same, entry, Option.some.injEq] at entryToo
      have equal : other = patch := by
        cases other
        cases patch
        simp_all
      exact (List.nodup_cons.mp visits.nodup).1 (equal ▸ member)
    · rw [Function.update_of_ne same, ← visits.mem_iff, List.mem_cons, or_iff_right]
      rintro rfl
      exact same rfl

/-- Patches inside the memory replace exactly their cells, in whatever order they are written. -/
theorem Visits.applyAll (visits : Visits entries order)
    (inside : ∀ patch ∈ order, memory.Contains patch.address) :
    Patch.applyAll memory order = .ok (memory.overlay entries) := by
  induction order generalizing memory entries with
  | nil =>
    have none : entries = fun _ => none := by
      funext address
      refine Option.eq_none_iff_forall_ne_some.mpr fun value entry => ?_
      exact List.not_mem_nil ((visits.mem_iff ⟨address, value⟩).mpr entry)
    rw [none, Memory.overlay_none]
    rfl
  | cons patch order ih =>
    obtain ⟨own, others⟩ := List.forall_mem_cons.mp inside
    have entry := (visits.mem_iff patch).mp List.mem_cons_self
    have stored : memory.write patch.address patch.value = .ok _ := dif_pos own
    have size := Memory.size_write stored
    have stays (other : Patch) (member : other ∈ order) : Memory.Contains _ other.address :=
      ⟨(others other member).1, Nat.lt_of_lt_of_eq (others other member).2 size.symm⟩
    rw [Patch.applyAll, stored]
    exact (ih visits.rest stays).trans (congrArg _ (Memory.overlay_write stored entry))

/-- Patches of which one is outside the memory fail, in whatever order they are written. -/
theorem applyAll_of_outside (member : patch ∈ order) (outside : ¬ memory.Contains patch.address) :
    ∃ f, applyAll memory order = .error f ∧ f.cause = .addressOutOfBounds := by
  cases applied : applyAll memory order with
  | error f => exact ⟨f, rfl, applyAll_cause applied⟩
  | ok patched => exact (outside ((contains_of_applyAll applied).2 patch member)).elim

end Patch

/-! ## Running without input -/

namespace Interpreter

variable {s t : Interpreter} {count : Nat}

private theorem input_of_after (reached : s.after count = some t) : t.input <:+ s.input := by
  induction count generalizing s with
  | zero =>
    cases reached
    exact List.suffix_rfl
  | succ count ih =>
    unfold after at reached
    split at reached
    · next next stepped => exact (ih reached).trans (step_traffic stepped).1
    · cases reached

/-- A run comes to rest where it does from a state on its way. -/
theorem Rests.of_after {o : Outcome} (reached : s.after count = some t) (rests : t.Rests o) :
    s.Rests (o.later count) := by
  induction count generalizing s with
  | zero =>
    cases reached
    simpa only [Outcome.later, Nat.zero_add] using rests
  | succ count ih =>
    unfold Interpreter.after at reached
    split at reached
    · next next stepped =>
      have later : o.later (count + 1) = (o.later count).later 1 := by
        simp only [Outcome.later, Nat.add_comm count 1, Nat.add_assoc]
      rw [later]
      exact .next stepped (ih reached)
    · cases reached

/-- Without input, a run starves exactly when it comes to an instruction that reads input. -/
theorem starves_iff (memory : Memory) :
    (∃ o, (load memory []).Rests o ∧ o.ending = .starved) ↔
      ∃ count s, (load memory []).after count = some s ∧ s.AtInput := by
  constructor
  · rintro ⟨o, rests, starved⟩
    exact ⟨o.steps, o.final, rests.after (by rw [starved]; rfl), (rests.input_of_starved starved).2⟩
  · rintro ⟨count, s, reached, reading⟩
    have empty : s.input = [] := List.suffix_nil.mp (input_of_after reached)
    have stopped : s.step = .error .starved := (step_eq_starved_iff s).mpr ⟨empty, reading⟩
    exact ⟨_, .of_after reached (.rest stopped), rfl⟩

/-- The memory in which a run has halted, or the failure of a run that has not. -/
def Outcome.memoryResult (o : Outcome) : Except Failure Memory :=
  o.result.map fun _ => o.final.memory

variable {o : Outcome}

private theorem memoryResult_eq_ok_iff {memory : Memory} :
    o.memoryResult = .ok memory ↔ o.ending = .halted ∧ o.final.memory = memory := by
  cases ending : o.ending <;> simp [Outcome.memoryResult, Outcome.result, ending, Except.map]

private theorem memoryResult_eq_error_iff {f : Failure} :
    o.memoryResult = .error f ↔ o.result = .error f := by
  rw [Outcome.memoryResult]
  cases o.result <;> simp [Except.map]

end Interpreter

section Patched

variable {program : Memory} {settings : List Setting} {setup : Setup}
  {entries : Cell → Option Cell} {order : List Patch}

/-- What a patched run comes to, however large a budget it takes. -/
def ComesTo (program : Memory) (order : List Patch) (settings : List Setting)
    (result : Except Failure Memory) : Prop :=
  ∃ budget run, runPatched budget program order settings = some run ∧ run.result = result

theorem Computer.build_of_valid (valid : Setup.ofSettings settings = .ok setup)
    (program : Memory) :
    build program settings = .ok ⟨.load (program.grow setup.minSize), setup.journal⟩ := by
  rw [build, valid]
  rfl

/-- What comes of a turn is read off the place where the plain interpreter comes to rest. -/
theorem PatchedRun.result_ofTurn {turn : Turn} {m : Machine} {o : Interpreter.Outcome}
    (stopped : turn.stop = m.stopAt o) : (ofTurn turn).result = o.memoryResult := by
  obtain ⟨⟨machine, journal⟩, status, events⟩ := turn
  cases ending : o.ending <;>
    simp only [Turn.stop, Machine.stopAt, ending, Stop.mk.injEq] at stopped <;>
    obtain ⟨rfl, rfl⟩ := stopped <;>
    simp only [ofTurn, Interpreter.Outcome.memoryResult, Interpreter.Outcome.result, ending] <;> rfl

/-- A patched run comes to what the plain interpreter does on the patched memory without input. -/
theorem comesTo_iff {memory : Memory} {result : Except Failure Memory}
    (valid : Setup.ofSettings settings = .ok setup)
    (patched : Patch.applyAll (program.grow setup.minSize) order = .ok memory) :
    ComesTo program order settings result ↔
      ∃ o, (Interpreter.load memory []).Rests o ∧ o.memoryResult = result := by
  have ran := runPatched_of_patched (Computer.build_of_valid valid program) patched
  constructor
  · rintro ⟨budget, run, answer, rfl⟩
    rw [ran, Option.map_eq_some_iff] at answer
    obtain ⟨turn, taken, rfl⟩ := answer
    obtain ⟨o, rests, stopped⟩ := Computer.rests_of_execute rfl taken
    exact ⟨o, rests, (PatchedRun.result_ofTurn stopped).symm⟩
  · rintro ⟨o, rests, rfl⟩
    let computer : Computer := ⟨.load memory, setup.journal⟩
    have rests : (computer.machine.plain (none : Option Cell).toList).Rests o := rests
    obtain ⟨budget, turn, taken, stopped⟩ := Computer.execute_of_rests rfl rests
    exact ⟨budget, .ofTurn turn, (ran budget).trans (congrArg _ taken),
      PatchedRun.result_ofTurn stopped⟩

theorem Memory.size_grow (m : Memory) (least : Cell) :
    (m.grow least).size = max m.size least.toNatClampNeg := by
  simp only [grow, size, Array.size_append, Array.size_replicate]
  omega

theorem Memory.grow_eq (m : Memory) (least : Cell) :
    m.grow least =
      .ofList (m.toList ++ List.replicate (least.toNatClampNeg - m.size) 0) := by
  rw [← toList_grow]
  rfl

theorem Memory.contains_grow_iff {m : Memory} {least address : Cell} :
    (m.grow least).Contains address ↔
      0 ≤ address.toInt ∧ address.toInt < max m.size least.toNatClampNeg := by
  rw [contains_iff, size_grow]

/-- A patched run does not depend on the order in which the patches are written. The memory holds
the cells of the program, with zeros behind them up to its size. If all patches are inside it, the
run is that of a fresh computer on the memory with exactly their cells replaced: it ends in the
memory in which the program halts, it lacks input if the program comes to an instruction that reads
input, and otherwise it fails as the program does. If one of them is outside, the run fails for that
in every order, without a single instruction. -/
theorem runPatched_unordered (valid : Setup.ofSettings settings = .ok setup) (program : Memory)
    (visits : Patch.Visits entries order) :
    let size := max program.size setup.minSize.toNatClampNeg
    let zeros := List.replicate (setup.minSize.toNatClampNeg - program.size) 0
    let start := (Memory.ofList (program.toList ++ zeros)).overlay entries
    ((∀ address value, entries address = some value →
        0 ≤ address.toInt ∧ address.toInt < size) →
      (∀ budget, runPatched budget program order settings =
        (Computer.run budget ⟨.load start, setup.journal⟩).map .ofTurn) ∧
      (∀ memory, ComesTo program order settings (.ok memory) ↔
        ∃ o, (Interpreter.load start []).Rests o ∧ o.ending = .halted ∧
          o.final.memory = memory ∧ memory.size = size) ∧
      ((∃ f, ComesTo program order settings (.error f) ∧ f.cause = .inputExhausted) ↔
        ∃ count s, (Interpreter.load start []).after count = some s ∧ s.AtInput) ∧
      ∀ f, ComesTo program order settings (.error f) ∧ f.cause ≠ .inputExhausted ↔
        ∃ o, (Interpreter.load start []).Rests o ∧ o.ending = .failed f) ∧
    ((∃ address value, entries address = some value ∧
        ¬ (0 ≤ address.toInt ∧ address.toInt < size)) →
      ∀ budget, ∃ f, runPatched budget program order settings = some { result := .error f } ∧
        f.cause = .addressOutOfBounds) := by
  intro size zeros start
  have grown : start = (program.grow setup.minSize).overlay entries := by rw [program.grow_eq]
  clear_value start
  subst grown
  refine ⟨fun inside => ?_, ?_⟩
  · have contained (patch : Patch) (member : patch ∈ order) :
        (program.grow setup.minSize).Contains patch.address :=
      Memory.contains_grow_iff.mpr (inside _ _ ((visits.mem_iff patch).mp member))
    have patched := visits.applyAll contained
    have comes {result : Except Failure Memory} : ComesTo program order settings result ↔ _ :=
      comesTo_iff valid patched
    refine ⟨runPatched_of_patched (Computer.build_of_valid valid program) patched, ?_, ?_, ?_⟩
    · intro memory
      rw [comes]
      refine exists_congr fun o => and_congr_right fun rests => ?_
      rw [Interpreter.memoryResult_eq_ok_iff]
      refine and_congr_right fun _ => ⟨?_, And.left⟩
      rintro rfl
      refine ⟨rfl, rests.size_memory.trans ?_⟩
      exact (Memory.size_overlay _ _).trans (program.size_grow _)
    · simp only [comes, ← Interpreter.starves_iff, Interpreter.memoryResult_eq_error_iff]
      constructor
      · rintro ⟨f, ⟨o, rests, result⟩, exhausted⟩
        exact ⟨o, rests, rests.starved_iff.mpr ⟨f, result, exhausted⟩⟩
      · rintro ⟨o, rests, starved⟩
        obtain ⟨f, result, exhausted⟩ := rests.starved_iff.mp starved
        exact ⟨f, ⟨o, rests, result⟩, exhausted⟩
    · intro f
      simp only [comes, Interpreter.memoryResult_eq_error_iff]
      constructor
      · rintro ⟨⟨o, rests, result⟩, known⟩
        exact ⟨o, rests, rests.failed_iff.mpr ⟨result, known⟩⟩
      · rintro ⟨o, rests, failed⟩
        obtain ⟨result, known⟩ := rests.failed_iff.mp failed
        exact ⟨⟨o, rests, result⟩, known⟩
  · rintro ⟨address, value, entry, beyond⟩ budget
    have outside : ¬ (program.grow setup.minSize).Contains address :=
      fun inside => beyond (Memory.contains_grow_iff.mp inside)
    obtain ⟨f, failed, cause⟩ :=
      Patch.applyAll_of_outside ((visits.mem_iff ⟨address, value⟩).mpr entry) outside
    exact ⟨f, runPatched_of_unpatched (Computer.build_of_valid valid program) failed budget, cause⟩

end Patched

def Patch.entriesOf : List Patch → Cell → Option Cell
  | [] => fun _ => none
  | patch :: rest => Function.update (entriesOf rest) patch.address (some patch.value)

/-- Patches at different addresses visit the map of which they are the entries. -/
theorem Patch.visits_entriesOf {patches : List Patch}
    (distinct : (patches.map Patch.address).Nodup) : Visits (entriesOf patches) patches where
  nodup := List.Nodup.of_map Patch.address distinct
  mem_iff other := by
    induction patches with
    | nil => simp [entriesOf]
    | cons patch rest ih =>
      obtain ⟨fresh, distinct⟩ := List.nodup_cons.mp distinct
      rw [entriesOf, List.mem_cons]
      by_cases same : other.address = patch.address
      · have absent : other ∉ rest := fun member => fresh (same ▸ List.mem_map_of_mem member)
        rw [same, Function.update_self, or_iff_left absent, Option.some.injEq]
        cases other
        cases patch
        simp_all [eq_comm]
      · rw [Function.update_of_ne same, ← ih distinct, or_iff_right]
        rintro rfl
        exact same rfl

/-- A program that adds two cells whose addresses are still to be set. -/
def adder : Memory :=
  .ofList [1, 0, 0, 0, 99]

theorem runPatched_unordered_adder :
    ComesTo adder [⟨5, 7⟩, ⟨1, 5⟩] [.minSize 6] (.ok (.ofList [8, 5, 0, 0, 99, 7])) ∧
    ∀ budget, ∃ f, runPatched budget adder [⟨1, 5⟩, ⟨6, 7⟩] [.minSize 6] =
      some { result := .error f } ∧ f.cause = .addressOutOfBounds := by
  have valid : Setup.ofSettings [.minSize 6] = .ok { minSize := 6 } := rfl
  constructor
  · have visits : Patch.Visits _ [⟨5, 7⟩, ⟨1, 5⟩] := Patch.visits_entriesOf (by decide)
    have inside (address value : Cell)
        (entry : Patch.entriesOf [⟨5, 7⟩, ⟨1, 5⟩] address = some value) :
        0 ≤ address.toInt ∧ address.toInt < 6 := by
      have member := (visits.mem_iff ⟨address, value⟩).mpr entry
      simp only [List.mem_cons, Patch.mk.injEq, List.not_mem_nil, or_false] at member
      rcases member with ⟨rfl, -⟩ | ⟨rfl, -⟩ <;> decide
    obtain ⟨-, halts, -⟩ := (runPatched_unordered valid adder visits).1 inside
    refine (halts _).mpr ⟨_, @Interpreter.rests_of_run 2 _ _ rfl, rfl, rfl, rfl⟩
  · have visits : Patch.Visits _ [⟨1, 5⟩, ⟨6, 7⟩] := Patch.visits_entriesOf (by decide)
    refine (runPatched_unordered valid adder visits).2 ⟨6, 7, rfl, ?_⟩
    decide

end CellMachine
