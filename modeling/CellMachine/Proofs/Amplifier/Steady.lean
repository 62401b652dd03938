import CellMachine.Amplifier.Search
import CellMachine.Proofs.Machine.Steady

/-! # Rings give steady answers

Building a ring, playing a round and running a ring to its end give steady answers. The results
that a ring can come to may therefore be spoken of without a budget.
-/

namespace CellMachine.Amplifier

variable {program : Memory} {mode : Mode} {config : Config} {phases : List Cell}

private theorem steady_start (program : Memory) (config : Config) (index : Nat) (phase : Cell) :
    Steady fun budget => start budget program config index phase := by
  unfold start
  split
  · exact .const _
  · exact (Computer.steady_resume _ phase).bind fun turn => .const _

private theorem steady_startAll (program : Memory) (config : Config) (index : Nat)
    (phases : List Cell) :
    Steady fun budget => startAll budget program config index phases := by
  induction phases generalizing index with
  | nil => exact .const _
  | cons phase rest ih =>
    refine (steady_start program config index phase).bind fun first => ?_
    split
    · exact .const _
    · exact (ih (index + 1)).bind fun others => .const _

theorem Ring.steady_build (program : Memory) (phases : List Cell) (mode : Mode) (config : Config) :
    Steady fun budget => Ring.build budget program phases mode config := by
  unfold Ring.build
  split
  · exact .const _
  · exact (steady_startAll program config 0 _).bind fun started => .const _

namespace Relay

variable {last : Nat}

theorem steady_round (r : Relay last) (mode : Mode) (config : Config) :
    Steady fun budget => r.round budget mode config := by
  unfold round
  split
  · exact .const _
  · split
    · exact (Computer.steady_resume _ _).bind fun turn => .const _
    · exact .const _

/-- Neither a larger budget for each round nor more rounds change the report of a relay. -/
theorem play_mono {r : Relay last} {budget larger rounds further : Nat} {log : Array Event}
    {report : Report Cell} (le : budget ≤ larger) (more : rounds ≤ further)
    (played : r.play budget mode config rounds log = some report) :
    r.play larger mode config further log = some report := by
  induction rounds generalizing further r log with
  | zero => cases played
  | succ rounds ih =>
    obtain ⟨further, rfl⟩ := Nat.exists_eq_add_one.mpr (Nat.lt_of_lt_of_le rounds.succ_pos more)
    unfold play at played ⊢
    cases round : r.round budget mode config with
    | none => simp only [round, reduceCtorEq] at played
    | some result =>
      have again : r.round larger mode config = some result := r.steady_round mode config le round
      rw [again]
      rw [round] at played
      cases result with
      | done result events => exact played
      | next r' events => exact ih (Nat.le_of_succ_le_succ more) played

end Relay

theorem Ring.steady_run (ring : Ring) : Steady fun budget => ring.run budget := by
  have play : Steady fun budget =>
      Relay.play budget ring.mode ring.config budget
        { slots := ring.slots, pending := [ring.config.seed] } #[] :=
    fun _ _ _ le played => Relay.play_mono le le played
  unfold Ring.run
  split
  · exact .const _
  · exact play.bind fun report => .const _

theorem steady_relay (program : Memory) (phases : List Cell) (mode : Mode) (config : Config) :
    Steady fun budget => relay budget program phases mode config := by
  refine (Ring.steady_build program phases mode config).bind fun built => ?_
  split
  · exact .const _
  · exact (Ring.steady_run _).bind fun ran => .const _

/-- A ring of the given phase settings is built, run to its end, and comes to the result. -/
def Relays (program : Memory) (mode : Mode) (config : Config) (phases : List Cell)
    (result : Except Failure Cell) : Prop :=
  ∃ budget report, relay budget program phases mode config = some report ∧ report.result = result

/-- A ring comes to one result only. -/
theorem Relays.unique {result other : Except Failure Cell}
    (relays : Relays program mode config phases result)
    (relaysToo : Relays program mode config phases other) : result = other := by
  obtain ⟨budget, report, answer, rfl⟩ := relays
  obtain ⟨budget', report', answer', rfl⟩ := relaysToo
  rw [(steady_relay program phases mode config).unique answer answer']

end CellMachine.Amplifier
