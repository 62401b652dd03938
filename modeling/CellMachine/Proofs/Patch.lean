import CellMachine.Patch
import CellMachine.Proofs.Machine.LifeCycle

/-! # Patched runs

A patched run is one turn of a computer whose memory has been patched. What comes of it is read off
that turn, unless one of the settings is refused or a patch lies outside the memory.
-/

namespace CellMachine

/-- A setting is refused for the size of the memory or for want of a journal. -/
theorem Setting.cause_of_refusal? {setting : Setting} {f : Failure}
    (refused : setting.refusal? = some f) :
    (∃ size, f.cause = .invalidMemorySize size) ∨ f.cause = .noJournal := by
  cases setting with
  | minSize size =>
    obtain ⟨-, refused⟩ := Option.ite_none_right_eq_some.mp refused
    cases refused
    exact .inl ⟨size, rfl⟩
  | name _ | journal _ => cases refused
  | missingJournal =>
    cases refused
    exact .inr rfl

namespace Setup

variable {settings : List Setting}

/-- Settings are refused for the first of them that is, and adopted one by one if none is. -/
theorem foldlM_apply (settings : List Setting) (s : Setup) :
    settings.foldlM apply s =
      match settings.findSome? Setting.refusal? with
      | some f => .error f
      | none => .ok (settings.foldl adopt s) := by
  induction settings generalizing s with
  | nil => rfl
  | cons setting rest ih =>
    rw [List.foldlM_cons, List.findSome?_cons, apply]
    cases setting.refusal? with
    | some f => rfl
    | none => exact ih (s.adopt setting)

theorem ofSettings_of_refused {f : Failure}
    (refused : settings.findSome? Setting.refusal? = some f) : ofSettings settings = .error f := by
  rw [ofSettings, foldlM_apply, refused]

theorem ofSettings_of_valid (valid : ∀ setting ∈ settings, setting.refusal? = none) :
    ofSettings settings = .ok (settings.foldl adopt {}) := by
  rw [ofSettings, foldlM_apply, List.findSome?_eq_none_iff.mpr valid]

/-- Settings are refused because one of them is. -/
theorem refused_of_ofSettings {f : Failure} (failed : ofSettings settings = .error f) :
    ∃ setting ∈ settings, setting.refusal? = some f := by
  rw [ofSettings, foldlM_apply] at failed
  split at failed
  · next g refused =>
    cases failed
    exact List.exists_of_findSome?_eq_some refused
  · cases failed

end Setup

/-- Patches are refused only for an address out of bounds. -/
theorem Patch.applyAll_cause {patches : List Patch} {memory : Memory} {f : Failure}
    (failed : applyAll memory patches = .error f) : f.cause = .addressOutOfBounds := by
  induction patches generalizing memory with
  | nil => cases failed
  | cons patch rest ih =>
    unfold applyAll at failed
    split at failed
    · exact ih failed
    · next unwritten =>
      cases failed
      exact (Memory.write_cause unwritten :)

/-- A write succeeds only inside the memory. -/
theorem Memory.contains_of_write {m written : Memory} {address value : Cell}
    (stored : m.write address value = .ok written) : m.Contains address := by
  unfold write at stored
  split at stored
  · next inside => exact inside
  · cases stored

/-- A memory that has been patched keeps its size and contains the addresses of all the patches. -/
theorem Patch.contains_of_applyAll {patches : List Patch} {memory patched : Memory}
    (applied : applyAll memory patches = .ok patched) :
    patched.size = memory.size ∧ ∀ patch ∈ patches, memory.Contains patch.address := by
  induction patches generalizing memory with
  | nil =>
    cases applied
    exact ⟨rfl, nofun⟩
  | cons patch rest ih =>
    unfold applyAll at applied
    split at applied
    · next written success =>
      obtain ⟨size, others⟩ := ih applied
      have same := Memory.size_write success
      refine ⟨size.trans same, List.forall_mem_cons.mpr ⟨Memory.contains_of_write success, ?_⟩⟩
      intro other member
      obtain ⟨positive, bound⟩ := others other member
      exact ⟨positive, Nat.lt_of_lt_of_eq bound same⟩
    · cases applied

/-- What comes of a patched run when the computer has taken its turn. -/
def PatchedRun.ofTurn (turn : Turn) : PatchedRun where
  result :=
    match turn.status with
    | .error f => .error f
    | .ok .awaiting => .error turn.computer.machine.starved
    | .ok (.halted _) => .ok turn.computer.machine.memory
  events := turn.events

variable {program : Memory} {patches : List Patch} {settings : List Setting}

theorem runPatched_of_refused {f : Failure} (refused : Computer.build program settings = .error f)
    (budget : Nat) :
    runPatched budget program patches settings = some { result := .error f } := by
  simp only [runPatched, refused]

theorem runPatched_of_unpatched {computer : Computer} {f : Failure}
    (built : Computer.build program settings = .ok computer)
    (failed : Patch.applyAll computer.machine.memory patches = .error f) (budget : Nat) :
    runPatched budget program patches settings = some { result := .error f } := by
  simp only [runPatched, built, failed]

/-- Once the computer is built and its memory is patched, it is set going. -/
theorem runPatched_of_patched {computer : Computer} {memory : Memory}
    (built : Computer.build program settings = .ok computer)
    (patched : Patch.applyAll computer.machine.memory patches = .ok memory) (budget : Nat) :
    runPatched budget program patches settings =
      ({ computer with machine := .load memory }.run budget).map .ofTurn := by
  simp only [runPatched, built, patched]
  cases ({ computer with machine := .load memory }.run budget) with
  | none => rfl
  | some turn =>
    rcases status : turn.status with f | ⟨_⟩ | output <;>
      simp [bind, Option.bind, pure, PatchedRun.ofTurn, status]

variable {budget : Nat} {run : PatchedRun}

/-- How a patched run that answers came about: the computer could not be built or patched, or it has
taken one turn from the start. -/
theorem runPatched_cases (answer : runPatched budget program patches settings = some run) :
    (∃ f, Computer.build program settings = .error f ∧ run = { result := .error f }) ∨
    (∃ computer f, Computer.build program settings = .ok computer ∧
      Patch.applyAll computer.machine.memory patches = .error f ∧ run = { result := .error f }) ∨
    ∃ computer memory turn, Computer.build program settings = .ok computer ∧
      Patch.applyAll computer.machine.memory patches = .ok memory ∧
        { computer with machine := .load memory }.run budget = some turn ∧ run = .ofTurn turn := by
  cases built : Computer.build program settings with
  | error f =>
    rw [runPatched_of_refused built] at answer
    cases answer
    exact .inl ⟨f, rfl, rfl⟩
  | ok computer =>
    cases patched : Patch.applyAll computer.machine.memory patches with
    | error f =>
      rw [runPatched_of_unpatched built patched] at answer
      cases answer
      exact .inr (.inl ⟨computer, f, rfl, patched, rfl⟩)
    | ok memory =>
      rw [runPatched_of_patched built patched] at answer
      obtain ⟨turn, ran, rfl⟩ := Option.map_eq_some_iff.mp answer
      exact .inr (.inr ⟨computer, memory, turn, rfl, patched, ran, rfl⟩)

/-- The memory in which a patched program halts contains the addresses of all the patches. -/
theorem runPatched_contains {memory : Memory}
    (answer : runPatched budget program patches settings = some run)
    (halted : run.result = .ok memory) : ∀ patch ∈ patches, memory.Contains patch.address := by
  obtain ⟨f, -, rfl⟩ | ⟨computer, f, -, -, rfl⟩ |
    ⟨computer, patched, turn, -, applied, ran, rfl⟩ := runPatched_cases answer
  · cases halted
  · cases halted
  · obtain ⟨stop, executed, rfl⟩ := Option.map_eq_some_iff.mp ran
    have kept : stop.machine.memory.size = patched.size := (Machine.lawful_of_execute executed).size
    obtain ⟨size, contained⟩ := Patch.contains_of_applyAll applied
    intro patch member
    obtain ⟨positive, bound⟩ := contained patch member
    refine ⟨positive, Nat.lt_of_lt_of_eq bound ?_⟩
    rcases status : stop.status with f | ⟨_⟩ | output
    all_goals simp only [PatchedRun.ofTurn, status] at halted
    · cases halted
    · cases halted
    · cases halted
      exact (kept.trans size).symm

end CellMachine
