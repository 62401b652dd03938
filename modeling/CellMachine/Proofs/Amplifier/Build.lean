import CellMachine.Amplifier.Ring

/-! # Rings that have been built

A ring that has been built has one amplifier per phase setting. Each of them has been given its
phase setting as first input and waits for a signal.
-/

namespace CellMachine.Amplifier

def Report.map {α β : Type} (f : α → β) (report : Report α) : Report β :=
  { result := report.result.map f, events := report.events }

/-- The amplifier at a place has been given its phase setting and waits for a signal. -/
def Started (budget : Nat) (program : Memory) (config : Config) (index : Nat) (phase : Cell)
    (slot : Slot) : Prop :=
  ∃ computer turn, Computer.build program (config.computerSettings index) = .ok computer ∧
    computer.resume budget phase = some turn ∧ turn.status = .ok .awaiting ∧
      slot = ⟨phase, .waiting turn.computer⟩

variable {budget : Nat} {program : Memory} {config : Config}

private theorem started_of_start {index : Nat} {phase : Cell} {report : Report Slot} {slot : Slot}
    (answer : start budget program config index phase = some report)
    (success : report.result = .ok slot) : Started budget program config index phase slot := by
  unfold start at answer
  split at answer
  · cases answer
    cases success
  · next computer built =>
    obtain ⟨turn, resumed, answer⟩ := Option.bind_eq_some_iff.mp answer
    split at answer <;> cases answer <;> cases success
    exact ⟨computer, turn, built, resumed, by assumption, rfl⟩

/-- Starting amplifiers one after the other starts each of them at its place. -/
theorem started_of_startAll {index : Nat} {phases : List Cell}
    {report : Report (Vector Slot phases.length)} {slots : Vector Slot phases.length}
    (answer : startAll budget program config index phases = some report)
    (success : report.result = .ok slots) (i : Nat) (inside : i < phases.length) :
    Started budget program config (index + i) phases[i] slots[i] := by
  induction phases generalizing index i with
  | nil => cases inside
  | cons phase rest ih =>
    unfold startAll at answer
    obtain ⟨first, firstAnswer, answer⟩ := Option.bind_eq_some_iff.mp answer
    split at answer
    · cases answer
      cases success
    · next slot started =>
      obtain ⟨others, othersAnswer, answer⟩ := Option.bind_eq_some_iff.mp answer
      cases answer
      cases othersResult : others.result with
      | error f => simp [othersResult, Except.map] at success
      | ok tail =>
        simp only [othersResult, Except.map, Except.ok.injEq] at success
        subst success
        cases i with
        | zero => simpa using started_of_start firstAnswer started
        | succ i =>
          have there := ih othersAnswer othersResult i (by simpa using inside)
          rw [Nat.add_right_comm, Nat.add_assoc] at there
          simpa using there

/-- What is known of a ring when it has been built. -/
theorem Ring.started_of_build {phases : List Cell} {mode : Mode} {ring : Ring} {events : List Event}
    (built : Ring.build budget program phases mode config = some ⟨.ok ring, events⟩) :
    ring.mode = mode ∧ ring.config = config ∧ ring.spent = false ∧
      phases.length = ring.last + 1 ∧
        ∀ k : Fin (ring.last + 1), ∃ phase, phases[k.val]? = some phase ∧
          Started budget program config k phase ring.slots[k] := by
  unfold build at built
  split at built
  · cases built
  · next phase rest =>
    obtain ⟨started, answer, built⟩ := Option.bind_eq_some_iff.mp built
    cases result : started.result with
    | error f => simp [result, Except.map] at built
    | ok slots =>
      simp only [result, Except.map, pure, Option.some_inj, Report.mk.injEq,
        Except.ok.injEq] at built
      obtain ⟨rfl, -⟩ := built
      refine ⟨rfl, rfl, rfl, rfl, fun k => ⟨(phase :: rest)[k], ?_, ?_⟩⟩
      · simp
      · simpa using started_of_startAll answer result k.val k.isLt

/-- Rings of different modes are built alike. -/
theorem Ring.build_mode (budget : Nat) (program : Memory) (phases : List Cell) (mode other : Mode)
    (config : Config) :
    Ring.build budget program phases other config =
      (Ring.build budget program phases mode config).map
        (Report.map fun ring => { ring with mode := other }) := by
  cases phases with
  | nil => rfl
  | cons phase rest =>
    simp only [Ring.build, bind]
    cases startAll budget program config 0 (phase :: rest) with
    | none => rfl
    | some report => cases slots : report.result <;> simp [pure, Report.map, Except.map, slots]

end CellMachine.Amplifier
