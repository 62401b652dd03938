import Mathlib.Logic.Relation
import CellMachine.Proofs.Amplifier.Rounds
import CellMachine.Proofs.Amplifier.Steady

/-! # Relays that come to a result

The inversions of a round are exact: a move that is described is made, and an end that is described
comes about. A relay that makes moves, each within some budget, up to an end is therefore played to
that end within one budget that is large enough for all of them.
-/

namespace CellMachine.Amplifier

open Relation

namespace Relay

variable {last : Nat} {budget : Nat} {mode : Mode} {config : Config} {r r' : Relay last}
  {events : List Event} {result : Except Failure Cell}

def Feeds (r : Relay last) : Prop :=
  (r.state r.current).isHalted = false ∧ r.pending ≠ []

instance (r : Relay last) : Decidable r.Feeds :=
  inferInstanceAs (Decidable (_ ∧ _))

theorem feeds_iff :
    r.Feeds ↔ ∃ computer signal rest, r.state r.current = .waiting computer ∧
      r.pending = signal :: rest := by
  constructor
  · rintro ⟨alive, some⟩
    obtain ⟨signal, rest, pending⟩ := List.exists_cons_of_ne_nil some
    cases state : r.state r.current with
    | waiting computer => exact ⟨computer, signal, rest, rfl, pending⟩
    | halted buffer => simp [state, Slot.State.isHalted] at alive
  · rintro ⟨computer, signal, rest, waiting, pending⟩
    exact ⟨by rw [waiting]; rfl, by simp [pending]⟩

/-! ## Rounds that are described are played -/

theorem round_of_waiting {computer : Computer} {signal : Cell} {rest : List Cell}
    (waiting : r.state r.current = .waiting computer) (pending : r.pending = signal :: rest) :
    r.round budget mode config = r.turnFed budget config computer signal rest := by
  have state : r.slot.state = .waiting computer := waiting
  simp only [round, state, pending]

/-- An amplifier that has nothing to be fed passes its turn on, unless it is the last one after
halting. -/
theorem round_of_quiet (quiet : (r.state r.current).isHalted ∨ r.pending = [] ∧ mode ≠ .chain)
    (inner : (r.state r.current).isHalted → r.current ≠ Fin.last last) :
    r.round budget mode config = some (r.passOn (r.drops config)) := by
  have slot : r.slot.state = r.state r.current := rfl
  cases state : r.state r.current with
  | halted buffer =>
    simp only [round, slot, state, turnHalted_eq state]
    rw [if_neg (inner (by rw [state]; rfl))]
  | waiting computer =>
    obtain ⟨pending, feedback⟩ := quiet.resolve_left (by simp [state, Slot.State.isHalted])
    have silent : r.drops config = [] := if_pos pending
    simp only [round, slot, state, pending, turnDrained_eq state, if_neg feedback, silent]

theorem round_of_moves (moves : r.Moves budget mode config r' events) :
    r.round budget mode config = some (.next r' events) := by
  cases moves with
  | @feed computer signal rest turn state waiting pending resumed left =>
    rw [round_of_waiting waiting pending, turnFed, resumed]
    rcases status : turn.status with f | ⟨_⟩ | output
    · simp [Slot.State.ofTurn, status] at left
    · obtain rfl : .waiting turn.computer = state := by simpa [Slot.State.ofTurn, status] using left
      simp [status, fed, Slot.State.handedOver, Slot.State.isHalted]
    · obtain rfl : .halted output = state := by simpa [Slot.State.ofTurn, status] using left
      simp [status, fed, Slot.State.handedOver, Slot.State.isHalted, Slot.State.buffer]
  | pass quiet inner lively =>
    rw [round_of_quiet quiet inner, passOn, if_neg]
    rintro ⟨empty, idle⟩
    exact absurd (lively empty) (Nat.not_lt.mpr idle)

theorem round_of_ends (ends : r.Ends budget mode config result events) :
    r.round budget mode config = some (.done result events) := by
  have slot : r.slot.state = r.state r.current := rfl
  cases ends with
  | failed waiting pending resumed failed =>
    rw [round_of_waiting waiting pending, turnFed, resumed]
    simp [failed]
  | stuck waiting pending chain =>
    simp only [round, slot, waiting, pending, turnDrained_eq waiting, if_pos chain]
  | complete halted outer =>
    cases state : r.state r.current with
    | waiting computer => simp [state, Slot.State.isHalted] at halted
    | halted buffer => simp only [round, slot, state, turnHalted_eq state, if_pos outer]
  | stalled quiet inner empty idle =>
    rw [round_of_quiet quiet inner, passOn, if_pos ⟨empty, idle⟩]

/-- A round that is not played within a budget feeds an amplifier whose turn takes longer. -/
theorem round_eq_none_iff :
    r.round budget mode config = none ↔
      ∃ computer signal rest, r.state r.current = .waiting computer ∧
        r.pending = signal :: rest ∧ computer.resume budget signal = none := by
  constructor
  · intro unplayed
    have slot : r.slot.state = r.state r.current := rfl
    unfold round at unplayed
    split at unplayed
    · cases unplayed
    · next computer waiting =>
      split at unplayed
      · next signal rest pending =>
        refine ⟨computer, signal, rest, slot ▸ waiting, pending, ?_⟩
        have never := Option.bind_eq_none_iff.mp unplayed
        cases resumed : computer.resume budget signal with
        | none => rfl
        | some turn =>
          have played := never turn resumed
          split at played <;> cases played
      · cases unplayed
  · rintro ⟨computer, signal, rest, waiting, pending, endless⟩
    rw [round_of_waiting waiting pending, turnFed, endless]
    rfl

/-! ## Whole relays -/

def Goes (mode : Mode) (config : Config) (r r' : Relay last) : Prop :=
  ∃ budget events, r.Moves budget mode config r' events

/-- The relay makes moves up to an end with the given result. -/
def ComesTo (mode : Mode) (config : Config) (r : Relay last) (result : Except Failure Cell) :
    Prop :=
  ∃ final budget events, ReflTransGen (Goes mode config) r final ∧
    final.Ends budget mode config result events

theorem ComesTo.after (goes : ReflTransGen (Goes mode config) r r')
    (comes : r'.ComesTo mode config result) : r.ComesTo mode config result := by
  obtain ⟨final, budget, events, further, ends⟩ := comes
  exact ⟨final, budget, events, goes.trans further, ends⟩

/-- A relay that is played to its end comes to the result. -/
theorem comesTo_of_play {rounds : Nat} {log : Array Event} {report : Report Cell}
    (played : r.play budget mode config rounds log = some report) :
    r.ComesTo mode config report.result := by
  induction rounds generalizing r log with
  | zero => cases played
  | succ rounds ih =>
    unfold Relay.play at played
    split at played
    · cases played
    · next result events done =>
      cases played
      exact ⟨r, budget, events, .refl, ends_of_round done⟩
    · next r' events next =>
      exact (ih played).after (.single ⟨budget, events, moves_of_round next⟩)

/-- One budget is enough for all the rounds up to the end. -/
theorem ComesTo.play (comes : r.ComesTo mode config result) (log : Array Event) :
    ∃ budget report, r.play budget mode config budget log = some report ∧
      report.result = result := by
  obtain ⟨final, budget, events, goes, ends⟩ := comes
  induction goes using ReflTransGen.head_induction_on generalizing log with
  | refl =>
    refine ⟨max budget 1, ⟨result, (log ++ events).toList⟩, ?_, rfl⟩
    refine play_mono (Nat.le_max_left budget 1) (Nat.le_max_right budget 1) ?_
    simp only [Relay.play, round_of_ends ends]
  | head step _ ih =>
    obtain ⟨first, reported, moves⟩ := step
    obtain ⟨second, report, played, same⟩ := ih (log ++ reported)
    refine ⟨max first (second + 1), report, ?_, same⟩
    refine play_mono le_rfl (Nat.le_max_right first (second + 1)) ?_
    have next := steady_round _ mode config (Nat.le_max_left first (second + 1))
      (round_of_moves moves)
    have rest := play_mono (Nat.le_trans (Nat.le_succ second) (Nat.le_max_right first (second + 1)))
      le_rfl played
    simp only at next
    simp only [Relay.play, next, rest]

end Relay

end CellMachine.Amplifier
