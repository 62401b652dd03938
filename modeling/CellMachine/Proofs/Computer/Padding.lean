import CellMachine.Proofs.Machine.Padding
import CellMachine.Proofs.Patch

/-! # Computers with more memory

A minimum size that is asked for in addition to other settings changes the memory of a computer and
nothing else. Such a computer takes the same turns and reports the same, and a patched run ends in
the same memory with zeros behind it, as long as the computer without the additional memory does not
fail for an address out of bounds.
-/

namespace CellMachine

/-! ## Settings -/

namespace Setting

def isMinSize : Setting → Bool
  | minSize _ => true
  | name _ | journal _ | missingJournal => false

/-- The second list is the first one, in which no minimum size is asked for, with one request for a
minimum size added somewhere. -/
def Enlarges (size : Cell) (settings larger : List Setting) : Prop :=
  ∃ before after, settings = before ++ after ∧ larger = before ++ .minSize size :: after ∧
    ∀ setting ∈ settings, setting.isMinSize = false

end Setting

namespace Setup

def withSize (size : Cell) (s : Setup) : Setup :=
  { s with minSize := size }

variable {s t : Setup} {size : Cell}

/-- Only a request for a minimum size changes it. -/
theorem minSize_of_apply {setting : Setting} (other : setting.isMinSize = false)
    (applied : s.apply setting = .ok t) : t.minSize = s.minSize := by
  cases setting with
  | minSize size => cases other
  | name _ | journal _ =>
    cases applied
    rfl
  | missingJournal => cases applied

private theorem apply_withSize {setting : Setting} (other : setting.isMinSize = false) :
    (s.withSize size).apply setting = (s.apply setting).map (withSize size) := by
  cases setting with
  | minSize size => cases other
  | name _ | journal _ | missingJournal => rfl

private theorem minSize_of_foldlM {settings : List Setting}
    (others : ∀ setting ∈ settings, setting.isMinSize = false)
    (applied : settings.foldlM apply s = .ok t) : t.minSize = s.minSize := by
  induction settings generalizing s with
  | nil =>
    cases applied
    rfl
  | cons setting rest ih =>
    obtain ⟨own, others⟩ := List.forall_mem_cons.mp others
    rw [List.foldlM_cons] at applied
    cases first : s.apply setting with
    | error f =>
      rw [first] at applied
      cases applied
    | ok next =>
      rw [first] at applied
      rw [ih others applied, minSize_of_apply own first]

private theorem foldlM_withSize {settings : List Setting}
    (others : ∀ setting ∈ settings, setting.isMinSize = false) :
    settings.foldlM apply (s.withSize size) = (settings.foldlM apply s).map (withSize size) := by
  induction settings generalizing s with
  | nil => rfl
  | cons setting rest ih =>
    obtain ⟨own, others⟩ := List.forall_mem_cons.mp others
    rw [List.foldlM_cons, List.foldlM_cons, apply_withSize own]
    cases s.apply setting with
    | error f => rfl
    | ok next => exact ih others

/-- A minimum size that is asked for in addition is the one in force, and the other choices are the
same. -/
theorem ofSettings_of_enlarges {settings larger : List Setting} (valid : 0 ≤ size)
    (enlarges : Setting.Enlarges size settings larger) :
    ofSettings larger = (ofSettings settings).map (withSize size) := by
  obtain ⟨before, after, rfl, rfl, others⟩ := enlarges
  have accepted (s : Setup) : s.apply (.minSize size) = .ok (s.withSize size) := by
    have notNegative : ¬ size < 0 := Int64.not_lt.mpr valid
    simp [apply, Setting.refusal?, notNegative, adopt, withSize]
  simp only [ofSettings, List.foldlM_append, List.foldlM_cons]
  cases List.foldlM apply {} before with
  | error f => rfl
  | ok s =>
    simp only [bind, Except.bind, accepted]
    exact foldlM_withSize fun setting member => others setting (List.mem_append_right _ member)

end Setup

/-! ## Turns -/

def Computer.padded (zeros : Nat) (c : Computer) : Computer :=
  { c with machine := c.machine.padded zeros }

def Turn.padded (zeros : Nat) (turn : Turn) : Turn :=
  { turn with computer := turn.computer.padded zeros }

namespace Computer

/-- A computer for which a minimum size was asked in addition has zeros behind its cells. -/
theorem build_of_enlarges {size : Cell} {settings larger : List Setting} (valid : 0 ≤ size)
    (enlarges : Setting.Enlarges size settings larger) (program : Memory) :
    build program larger =
      (build program settings).map (padded (size.toNatClampNeg - program.size)) := by
  unfold build
  rw [Setup.ofSettings_of_enlarges valid enlarges]
  cases applied : Setup.ofSettings settings with
  | error f => rfl
  | ok setup =>
    obtain ⟨before, after, rfl, rfl, others⟩ := enlarges
    have unset : setup.minSize = 0 := Setup.minSize_of_foldlM others applied
    have asItIs : program.grow setup.minSize = program := by rw [unset, Memory.grow_zero]
    simp only [bind, Except.bind, Except.map, pure, Except.pure, asItIs]
    rfl

/-- A computer with more memory takes the same turn, unless the computer as it is fails for an
address out of bounds. -/
theorem execute_padded {budget : Nat} {c : Computer} {input : Option Cell}
    (inside : ∀ turn, c.execute budget input = some turn → InBounds turn.status) (zeros : Nat) :
    (c.padded zeros).execute budget input = (c.execute budget input).map (Turn.padded zeros) := by
  have inBounds (stop : Stop) (stopped : c.machine.execute budget input = some stop) :
      InBounds stop.status :=
    inside _ (Option.map_eq_some_iff.mpr ⟨stop, stopped, rfl⟩)
  have machine : (c.padded zeros).machine.execute budget input =
      (c.machine.execute budget input).map (Stop.padded zeros) :=
    Machine.execute_padded inBounds zeros
  simp only [execute, machine, Option.map_map]
  rfl

end Computer

/-! ## Patched runs -/

def PatchedRun.padded (zeros : Nat) (run : PatchedRun) : PatchedRun :=
  { run with result := run.result.map (Memory.padded zeros) }

/-- Patches are written to a padded memory in the same way. -/
theorem Patch.applyAll_padded {patches : List Patch} {memory patched : Memory}
    (applied : applyAll memory patches = .ok patched) (zeros : Nat) :
    applyAll (memory.padded zeros) patches = .ok (patched.padded zeros) := by
  induction patches generalizing memory with
  | nil =>
    cases applied
    rfl
  | cons patch rest ih =>
    unfold applyAll at applied ⊢
    split at applied
    · next stored =>
      simp only [Memory.write_padded stored zeros]
      exact ih applied
    · cases applied

/-- What comes of a turn with more memory has zeros behind the memory. -/
theorem PatchedRun.ofTurn_padded (turn : Turn) (zeros : Nat) :
    ofTurn (turn.padded zeros) = (ofTurn turn).padded zeros := by
  rcases status : turn.status with f | ⟨_⟩ | output <;>
    simp only [ofTurn, Turn.padded, padded, status, Except.map] <;> rfl

/-- A patched run for which a minimum size was asked in addition ends in the same memory with zeros
behind it, or fails in the same way, unless the run as it is fails for an address out of bounds. -/
theorem runPatched_of_enlarges {budget : Nat} {program : Memory} {patches : List Patch}
    {size : Cell} {settings larger : List Setting} (valid : 0 ≤ size)
    (enlarges : Setting.Enlarges size settings larger)
    (inside : ∀ run, runPatched budget program patches settings = some run → InBounds run.result) :
    runPatched budget program patches larger =
      (runPatched budget program patches settings).map
        (PatchedRun.padded (size.toNatClampNeg - program.size)) := by
  have builtLarger := Computer.build_of_enlarges valid enlarges program
  generalize size.toNatClampNeg - program.size = zeros at builtLarger ⊢
  cases built : Computer.build program settings with
  | error f =>
    rw [built] at builtLarger
    rw [runPatched_of_refused built, runPatched_of_refused builtLarger]
    rfl
  | ok computer =>
    rw [built] at builtLarger
    cases patched : Patch.applyAll computer.machine.memory patches with
    | error f =>
      have failed := inside _ (runPatched_of_unpatched built patched budget)
      exact (failed f rfl (Patch.applyAll_cause patched)).elim
    | ok memory =>
      have ran := runPatched_of_patched built patched budget
      have ranLarger :=
        runPatched_of_patched builtLarger (Patch.applyAll_padded patched zeros) budget
      have inBounds (turn : Turn)
          (taken : { computer with machine := .load memory }.run budget = some turn) :
          InBounds turn.status := by
        intro f failed
        have result : (PatchedRun.ofTurn turn).result = .error f := by
          simp only [PatchedRun.ofTurn, failed]
        exact inside _ (by rw [ran, taken]; rfl) f result
      have turns := Computer.execute_padded inBounds zeros
      rw [ran, ranLarger, Option.map_map]
      refine (congrArg (Option.map PatchedRun.ofTurn) turns).trans ?_
      rw [Option.map_map]
      exact congrArg (Option.map · _) (funext fun turn => PatchedRun.ofTurn_padded turn zeros)

end CellMachine
