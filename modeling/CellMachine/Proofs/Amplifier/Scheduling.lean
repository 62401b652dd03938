import CellMachine.Proofs.Amplifier.Ledger
import CellMachine.Proofs.Amplifier.Network

/-! # The relay is one schedule of the network

A relay stands for a network: what is due at an amplifier and what is in the buffer before it is its
queue. Passing the turn on does not change that network, and feeding the current amplifier is one
step of it, so a ring that runs follows one order of the steps among many. By confluence the values
that the last amplifier puts out do not depend on the order. When the relay stalls no step is left,
so no order lets the last amplifier halt.
-/

namespace CellMachine.Amplifier

open Relation

/-! ## The network of a relay -/

/-- The amplifier of a network, whose output has been sent off. -/
def Slot.State.node : Slot.State → Node
  | .waiting computer => .waiting computer.takeOutput.2
  | .halted _ => .halted

/-- The network of a ring that has been built. The seed is in the queue of the first amplifier, and
the values put out on starting are in the queue of the next amplifier, behind the seed. -/
def Ring.network (ring : Ring) : Network ring.last where
  nodes k := (ring.opening.state k).node
  queues k := (if k.val = 0 then [ring.config.seed] else []) ++
    ring.opening.buffer ((finRotate (ring.last + 1)).symm k)
  emitted := ring.opening.buffer

variable {last : Nat}

/-- All the values that an amplifier has put out: those relayed and those in its buffer. -/
def Relay.emitted (r : Relay last) (l : Ledger last) (k : Fin (last + 1)) : List Cell :=
  l.relayed k ++ r.buffer k

/-- The network that a relay with its ledger stands for. -/
def Relay.network (r : Relay last) (l : Ledger last) : Network last where
  nodes k := (r.state k).node
  queues k := r.due l k ++ r.buffer ((finRotate (last + 1)).symm k)
  emitted := r.emitted l

@[simp]
theorem Slot.State.node_emptied (state : Slot.State) : state.emptied.node = state.node := by
  cases state <;> rfl

private theorem Slot.State.node_eq_halted_iff (state : Slot.State) :
    state.node = .halted ↔ state.isHalted := by
  cases state <;> simp [node, isHalted]

private theorem Ring.network_opening (ring : Ring) :
    ring.opening.network (.opening ring.opening) = ring.network := by
  simp only [Relay.network, network, Relay.due_opening, Fin.val_eq_zero_iff]
  rfl

/-- Passing the turn on moves values within the queues and changes nothing else. -/
theorem Relay.network_passed {r : Relay last}
    (quiet : (r.state r.current).isHalted ∨ r.pending = []) (l : Ledger last) :
    r.passed.network (l.after r) = r.network l := by
  have before (k : Fin (last + 1)) : k - 1 = r.current ↔ k = r.current + 1 := sub_eq_iff_eq_add
  simp only [network, Network.mk.injEq]
  refine ⟨?_, ?_, ?_⟩
  · funext k
    by_cases here : k = r.current
    · subst here
      simp
    · simp [here]
  · funext k
    -- What leaves the buffer of the current amplifier is due at the next, in the same queue.
    rw [due_passed quiet, buffer_passed]
    by_cases next : k = r.current + 1
    · simp [next]
    · simp [next, mt (before k).mp next]
  · funext k
    rw [emitted, emitted, buffer_passed, Ledger.after_of_quiet quiet]
    by_cases here : k = r.current
    · subst here
      simp [Ledger.note, Relay.buffer]
    · simp [Ledger.note, here]

/-- A computer goes the same way when its output has been taken before. -/
theorem resume_takeOutput {budget : Nat} {computer : Computer} {value : Cell} {turn : Turn}
    {state : Slot.State} (alive : computer.machine.halted = false)
    (resumed : computer.resume budget value = some turn)
    (left : Slot.State.ofTurn turn = some state) :
    ∃ turn' output, computer.takeOutput.2.resume budget value = some turn' ∧
      Node.ofTurn turn' = some (state.node, output) ∧
        state.buffer = computer.machine.output.toList ++ output := by
  let cleared := computer.takeOutput.2
  have behind : computer.machine.plain [value] =
      (cleared.machine.plain [value]).behind computer.machine.output.toList := by
    simp [Machine.plain, Interpreter.behind, cleared, Computer.takeOutput, Machine.takeOutput]
  obtain ⟨stop, executed, rfl⟩ := Option.map_eq_some_iff.mp resumed
  rw [Machine.execute_eq alive, Option.toList_some, behind, Interpreter.run_behind] at executed
  obtain ⟨_, moved, rfl⟩ := Option.map_eq_some_iff.mp executed
  obtain ⟨o, answer, rfl⟩ := Option.map_eq_some_iff.mp moved
  have executed' : cleared.machine.execute budget (some value) =
      some (cleared.machine.reset.stopAt o) := by
    rw [Machine.execute_eq (by exact alive), Option.toList_some, answer, Option.map_some]
  refine ⟨_, o.final.output, Option.map_eq_some_iff.mpr ⟨_, executed', rfl⟩, ?_⟩
  cases ending : o.ending with
  | failed f => simp [Slot.State.ofTurn, Machine.stopAt, Interpreter.Outcome.behind, ending] at left
  | halted =>
    simp only [Slot.State.ofTurn, Machine.stopAt, Interpreter.Outcome.behind, ending,
      Option.some_inj] at left
    subst left
    simp [Node.ofTurn, Machine.stopAt, ending, Slot.State.node, Slot.State.buffer,
      Interpreter.behind]
  | starved =>
    simp only [Slot.State.ofTurn, Machine.stopAt, Interpreter.Outcome.behind, ending,
      Option.some_inj] at left
    subst left
    simp [Node.ofTurn, Machine.stopAt, ending, Slot.State.node, Slot.State.buffer, cleared,
      Interpreter.behind, Machine.moved, Machine.reset, Computer.takeOutput, Machine.takeOutput]

/-- Feeding the current amplifier takes the signal from the front of its queue and adds the new
output to the queue of the next. -/
theorem Relay.network_fed {r : Relay last} {l : Ledger last} {computer : Computer} {signal : Cell}
    {rest output : List Cell} {state : Slot.State}
    (waiting : r.state r.current = .waiting computer) (pending : r.pending = signal :: rest)
    (kept : l.dropped r.current = []) (grown : state.buffer = r.buffer r.current ++ output) :
    (r.fed state rest).network (l.after r) =
      (r.network l).fire r.current (rest ++ r.buffer (r.current - 1)) state.node output := by
  have buffer (k : Fin (last + 1)) : (r.fed state rest).buffer k =
      r.buffer k ++ if k = r.current then output else [] := by
    by_cases here : k = r.current
    · subst here
      rw [Relay.buffer, state_fed, Function.update_self, grown, if_pos rfl]
    · simp [Relay.buffer, here]
  rw [Ledger.after_of_fed waiting pending]
  simp only [network, Network.fire, Network.mk.injEq]
  refine ⟨?_, ?_, ?_⟩
  · funext k
    by_cases here : k = r.current
    · subst here
      simp
    · simp [here]
  · funext k
    simp only [buffer, Equiv.symm_apply_eq, ← List.append_assoc]
    congr 1
    by_cases here : k = r.current
    · subst here
      simp [due, fed, kept]
    · simp [due, here, Ne.symm here]
  · funext k
    rw [emitted, buffer, ← List.append_assoc]
    by_cases here : k = r.current
    · subst here
      simp [emitted]
    · simp [emitted, here]

/-- Feeding the current amplifier is one step of the network. -/
theorem Relay.step_fed {budget : Nat} {r : Relay last} {l : Ledger last} {computer : Computer}
    {signal : Cell} {rest : List Cell} {turn : Turn} {state : Slot.State}
    (waiting : r.state r.current = .waiting computer) (pending : r.pending = signal :: rest)
    (alive : computer.machine.halted = false) (kept : l.dropped r.current = [])
    (resumed : computer.resume budget signal = some turn)
    (left : Slot.State.ofTurn turn = some state) :
    (r.network l).Step ((r.fed state rest).network (l.after r)) := by
  obtain ⟨turn', output, resumed', left', grown⟩ := resume_takeOutput alive resumed left
  have buffer : r.buffer r.current = computer.machine.output.toList := by
    rw [Relay.buffer, waiting]
    rfl
  rw [network_fed waiting pending kept (buffer ▸ grown)]
  refine .feed ?_ ?_ resumed' left'
  · simp [network, waiting, Slot.State.node]
  · simp [network, due, kept, pending]

/-! ## What the relay keeps track of -/

namespace Relay

variable {budget : Nat} {mode : Mode} {config : Config} {r r' : Relay last} {l : Ledger last}
  {events : List Event}

/-- The signal is the last of the values that the last amplifier has relayed or handed over on
halting. -/
def Noted (r : Relay last) (l : Ledger last) : Prop :=
  r.signal =
    (l.relayed (Fin.last last) ++ (r.state (Fin.last last)).handedOver).getLast?

theorem Noted.move (noted : r.Noted l) (moves : r.Moves budget mode config r' events) :
    r'.Noted (l.after r) := by
  unfold Noted at noted ⊢
  cases moves with
  | @feed computer signal rest turn state waiting pending resumed left =>
    rw [Ledger.after_of_fed waiting pending, signal_fed, state_fed, noted]
    by_cases outer : r.current = Fin.last last
    · rw [if_pos outer, ← outer, Function.update_self, waiting, List.getLast?_append]
      simp [Slot.State.handedOver]
    · rw [if_neg outer, Function.update_of_ne (Ne.symm outer)]
  | pass quiet inner lively =>
    rw [Ledger.after_of_quiet (quiet.imp_right And.left), signal_passed, state_passed, noted]
    by_cases outer : r.current = Fin.last last
    · obtain ⟨computer, waiting⟩ : ∃ computer, r.state r.current = .waiting computer := by
        cases state : r.state r.current with
        | waiting computer => exact ⟨computer, rfl⟩
        | halted buffer => exact (inner (by rw [state]; rfl) outer).elim
      rw [if_pos outer, ← outer, Function.update_self, waiting]
      simp [Ledger.note, Slot.State.emptied, Slot.State.handedOver]
    · simp [outer, Ledger.note, Ne.symm outer]

/-- The amplifier has nothing to relay, and it is not the last one after halting. -/
def Quiet (r : Relay last) (k : Fin (last + 1)) : Prop :=
  r.buffer k = [] ∧ (k = Fin.last last → (r.state k).isHalted = false)

/-- As many amplifiers as there were turns without a signal are quiet, counted back from the one
before the current amplifier. -/
def Rested (r : Relay last) : Prop :=
  ∀ k ≠ r.current, (r.current - k).val ≤ r.idle → r.Quiet k

/-- The amplifier that passes the turn on becomes quiet, and the others stay so. -/
theorem quiet_passed (inner : (r.state r.current).isHalted → r.current ≠ Fin.last last)
    {k : Fin (last + 1)} (known : k = r.current ∨ r.Quiet k) : r.passed.Quiet k := by
  by_cases here : k = r.current
  · subst here
    refine ⟨by simp [buffer_passed], fun outer => ?_⟩
    simpa using fun halted => inner halted outer
  · simpa [Quiet, buffer_passed, here] using known.resolve_left here

private theorem rested_of_idle_eq_zero (lively : r.idle = 0) : r.Rested := by
  intro k other near
  have same : r.current - k = 0 := Fin.ext (Nat.le_zero.mp (lively ▸ near))
  exact (other (sub_eq_zero.mp same).symm).elim

theorem Rested.move (rested : r.Rested) (moves : r.Moves budget mode config r' events) :
    r'.Rested := by
  cases moves with
  | feed => exact rested_of_idle_eq_zero rfl
  | pass quiet inner lively =>
    intro k other near
    refine quiet_passed inner ?_
    by_cases here : k = r.current
    · exact .inl here
    · refine .inr (rested k here ?_)
      have further : r.current + 1 - k = r.current - k + 1 := add_sub_right_comm ..
      have unwrapped : r.current - k ≠ Fin.last last := by
        intro farthest
        rw [farthest, Fin.last_add_one, sub_eq_zero] at further
        exact other (further.symm.trans r.current_passed.symm)
      -- Passing the turn on takes every other amplifier one place further away.
      have distance : (r.current + 1 - k).val = (r.current - k).val + 1 := by
        rw [further, Fin.val_add_one, if_neg unwrapped]
      have idle : r.passed.idle ≤ r.idle + 1 := by
        simp only [passed]
        split <;> omega
      rw [current_passed] at near
      omega

end Relay

/-! ## Schedules -/

variable {program : Memory} {config : Config} {phases : List Cell} {mode : Mode} {ring : Ring}
  {started budget : Nat} {events log : List Event} {r : Relay ring.last} {l : Ledger ring.last}

/-- An amplifier that waits has not halted. -/
theorem Balanced.alive {last : Nat} {phases : Fin (last + 1) → Cell} {r : Relay last}
    {l : Ledger last} {computer : Computer} {k : Fin (last + 1)}
    (balanced : Balanced program config phases r l log) (waiting : r.state k = .waiting computer) :
    computer.machine.halted = false := by
  obtain ⟨_, -, o, -, stands, -⟩ := balanced.reflects k
  rw [waiting] at stands
  exact stands.2.1

/-- The relay follows one order of the steps of the network. -/
theorem Ring.Reaches.simulated
    (built : Ring.build started program phases mode config = some ⟨.ok ring, events⟩)
    (reached : ring.Reaches budget r l log) :
    ReflTransGen Network.Step ring.network (r.network l) := by
  induction reached with
  | start => rw [Ring.network_opening]
  | round reached played ih =>
    have balanced := reached.balanced built
    cases Relay.moves_of_round played with
    | feed waiting pending resumed left =>
      have alive := balanced.alive waiting
      have kept := balanced.kept _ (by rw [waiting]; rfl)
      exact ih.tail (Relay.step_fed waiting pending alive kept resumed left)
    | pass quiet =>
      rw [Relay.network_passed (quiet.imp_right And.left)]
      exact ih

theorem Ring.Reaches.tracked
    (built : Ring.build started program phases mode config = some ⟨.ok ring, events⟩)
    (reached : ring.Reaches budget r l log) : r.Noted l ∧ r.Rested := by
  induction reached with
  | start =>
    obtain ⟨-, -, -, -, startedAt⟩ := Ring.started_of_build built
    obtain ⟨_, -, computer, turn, -, -, -, slot⟩ := startedAt (Fin.last _)
    refine ⟨?_, Relay.rested_of_idle_eq_zero rfl⟩
    have waiting : ring.opening.state (Fin.last _) = .waiting turn.computer := by
      rw [Relay.state, Ring.opening, slot]
    rw [Relay.Noted, waiting]
    rfl
  | round _ played ih =>
    have moves := Relay.moves_of_round played
    exact ⟨ih.1.move moves, ih.2.move moves⟩

/-- The current amplifier has nothing to pass on, and neither had the others in their last turns. -/
structure Relay.Stalls {last : Nat} (mode : Mode) (r : Relay last) : Prop where
  quiet : (r.state r.current).isHalted ∨ r.pending = [] ∧ mode ≠ .chain
  inner : (r.state r.current).isHalted → r.current ≠ Fin.last last
  empty : (r.state r.current).buffer = []
  idle : last ≤ r.idle

/-- When a relay stalls, every amplifier is quiet. -/
theorem Relay.Stalls.all_quiet {last : Nat} {r : Relay last} (stalls : r.Stalls mode)
    (rested : r.Rested) (k : Fin (last + 1)) : r.Quiet k := by
  by_cases here : k = r.current
  · subst here
    exact ⟨stalls.empty, fun outer => Bool.eq_false_iff.mpr fun halted => stalls.inner halted outer⟩
  · exact rested k here ((Nat.lt_succ_iff.mp (r.current - k).isLt).trans stalls.idle)

/-- A relay that has stalled stands for a network in which nothing is left to do and the last
amplifier waits. -/
theorem Relay.settled_of_stalled {last : Nat} {phases : Fin (last + 1) → Cell} {r : Relay last}
    {l : Ledger last} (balanced : Balanced program config phases r l log) (rested : r.Rested)
    (quiet : (r.state r.current).isHalted ∨ r.pending = [])
    (inner : (r.state r.current).isHalted → r.current ≠ Fin.last last)
    (empty : (r.state r.current).buffer = []) (idle : last ≤ r.idle) :
    (r.network l).Settled ∧ (r.network l).nodes (Fin.last last) ≠ .halted := by
  have stalls : r.Stalls .feedback :=
    ⟨quiet.imp_right fun pending => ⟨pending, nofun⟩, inner, empty, idle⟩
  have all := stalls.all_quiet rested
  constructor
  · intro k computer waiting
    have alive : (r.state k).isHalted = false := by
      cases state : r.state k with
      | waiting computer => rfl
      | halted buffer => simp [Relay.network, state, Slot.State.node] at waiting
    have nonePending : (if r.current = k then r.pending else []) = [] := by
      split
      · next here => exact quiet.resolve_left (by simp [here, alive])
      · rfl
    change r.due l k ++ r.buffer _ = []
    rw [(all _).1, due, balanced.kept k alive, nonePending]
    rfl
  · intro halted
    have halted := (Slot.State.node_eq_halted_iff _).mp halted
    simp [(all _).2 rfl] at halted

/-- A relay that ends with a signal ends because the last amplifier has halted. -/
theorem Relay.Ends.of_ok {last : Nat} {r : Relay last} {signal : Cell}
    (ends : r.Ends budget mode config (.ok signal) events) :
    (r.state (Fin.last last)).isHalted ∧ r.signal = some signal := by
  generalize outcome : Except.ok signal = result at ends
  cases ends with
  | failed | stuck | stalled => cases outcome
  | complete halted outer =>
    refine ⟨outer ▸ halted, ?_⟩
    unfold Relay.result at outcome
    split at outcome
    · next signal noted =>
      cases outcome
      exact noted
    · cases outcome

/-- An amplifier fails for one of the causes of an instruction. -/
theorem Balanced.cause_of_failed {last : Nat} {phases : Fin (last + 1) → Cell} {r : Relay last}
    {l : Ledger last} {computer : Computer} {k : Fin (last + 1)} {value : Cell} {turn : Turn}
    {f : Failure} (balanced : Balanced program config phases r l log)
    (waiting : r.state k = .waiting computer) (resumed : computer.resume budget value = some turn)
    (failed : turn.status = .error f) : f.cause.OfInstruction := by
  obtain ⟨o, rests, failure, -⟩ := rests_of_resume (balanced.alive waiting) resumed
  exact rests.cause_of_failed (failure f failed)

/-- An amplifier does not fail for the reason that a relay has stalled. -/
theorem Balanced.cause_ne_stalled {last : Nat} {phases : Fin (last + 1) → Cell} {r : Relay last}
    {l : Ledger last} {computer : Computer} {k : Fin (last + 1)} {value : Cell} {turn : Turn}
    {f : Failure} (balanced : Balanced program config phases r l log)
    (waiting : r.state k = .waiting computer) (resumed : computer.resume budget value = some turn)
    (failed : turn.status = .error f) : f.cause ≠ .stalled :=
  (balanced.cause_of_failed waiting resumed failed).ne (by simp [Cause.OfInstruction])

/-- The causes for which a relay can fail, each with what it says of the relay. -/
theorem Balanced.cause_of_ends {last : Nat} {phases : Fin (last + 1) → Cell} {r : Relay last}
    {l : Ledger last} {f : Failure} (balanced : Balanced program config phases r l log)
    (ends : r.Ends budget mode config (.error f) events) :
    f.cause.OfInstruction ∨ f.cause = .noSignal ∨
      (f.cause = .preconditionViolated ∧ mode = .chain) ∨ (f.cause = .stalled ∧ r.Stalls mode) := by
  generalize outcome : Except.error f = result at ends
  cases ends with
  | failed waiting _ resumed failure =>
    cases outcome
    exact .inl (balanced.cause_of_failed waiting resumed failure :)
  | stuck _ _ chain =>
    cases outcome
    exact .inr (.inr (.inl ⟨rfl, chain⟩))
  | complete =>
    unfold Relay.result at outcome
    split at outcome <;> cases outcome
    exact .inr (.inl rfl)
  | stalled quiet inner empty idle =>
    cases outcome
    exact .inr (.inr (.inr ⟨rfl, quiet, inner, empty, idle⟩))

/-- The result of a ring does not depend on the order in which its amplifiers are fed. When it has a
signal, the last amplifier puts out the same values in every order of the steps of the network in
which it halts, and the signal is the last of them. When it stalls, the last amplifier does not halt
in any order. -/
theorem Ring.scheduling_independent {report : Report Cell} {spent : Ring}
    (built : Ring.build started program phases mode config = some ⟨.ok ring, events⟩)
    (ran : ring.run budget = some (report, spent)) :
    (∀ signal, report.result = .ok signal → ∃ r l log reported, ring.Reaches budget r l log ∧
      r.round budget ring.mode ring.config = some (.done (.ok signal) reported) ∧
        (r.emitted l (Fin.last ring.last)).getLast? = some signal ∧
          ∀ s, ReflTransGen Network.Step ring.network s →
            s.nodes (Fin.last ring.last) = .halted →
              s.emitted (Fin.last ring.last) = r.emitted l (Fin.last ring.last)) ∧
    ∀ f, report.result = .error f → f.cause = .stalled →
      ∀ s, ReflTransGen Network.Step ring.network s → s.nodes (Fin.last ring.last) ≠ .halted := by
  obtain ⟨-, -, fresh, -⟩ := started_of_build built
  obtain ⟨r, l, log, reported, reached, done, -⟩ := finishes_of_run fresh ran
  have balanced := reached.balanced built
  have simulated := reached.simulated built
  obtain ⟨noted, rested⟩ := reached.tracked built
  have ends := Relay.ends_of_round done
  constructor
  · intro signal success
    rw [success] at done ends
    obtain ⟨halted, last⟩ := ends.of_ok
    refine ⟨r, l, log, reported, reached, done, ?_, ?_⟩
    · rw [← last, noted, Slot.State.handedOver_of_isHalted halted]
      rfl
    · intro s steps haltedToo
      have haltedNode : (r.network l).nodes (Fin.last ring.last) = .halted :=
        (Slot.State.node_eq_halted_iff _).mpr halted
      exact Network.emitted_unique steps simulated haltedToo haltedNode
  · intro f failed stalled s steps
    rw [failed] at ends
    generalize outcome : Except.error f = result at ends
    cases ends with
    | failed waiting _ resumed failure =>
      cases outcome
      exact (balanced.cause_ne_stalled waiting resumed failure stalled).elim
    | stuck =>
      cases outcome
      cases stalled
    | complete =>
      unfold Relay.result at outcome
      split at outcome <;> cases outcome
      cases stalled
    | stalled quiet inner empty idle =>
      obtain ⟨settled, alive⟩ := Relay.settled_of_stalled balanced rested
        (quiet.imp_right And.left) inner empty idle
      exact settled.not_halted steps simulated alive

/-- A program that reads values for ever and puts nothing out. -/
def listener : Memory :=
  .ofList [3, 5, 1105, 1, 0, 0]

theorem Ring.scheduling_independent_doubler_listener :
    (∃ ring events report spent,
      Ring.build 9 doubler [1, 2] .feedback { seed := 5 } = some ⟨.ok ring, events⟩ ∧
        ring.run 9 = some (report, spent) ∧ report.result = .ok 5 ∧
          ∀ s, ReflTransGen Network.Step ring.network s →
            s.nodes (Fin.last ring.last) = .halted →
              (s.emitted (Fin.last ring.last)).getLast? = some 5) ∧
    ∃ ring events report spent,
      Ring.build 9 listener [1, 2] .feedback {} = some ⟨.ok ring, events⟩ ∧
        ring.run 9 = some (report, spent) ∧
          ∀ s, ReflTransGen Network.Step ring.network s →
            s.nodes (Fin.last ring.last) ≠ .halted := by
  constructor
  · obtain ⟨ring, events, report, spent, built, ran, result⟩ : ∃ ring events report spent,
        Ring.build 9 doubler [1, 2] .feedback { seed := 5 } = some ⟨.ok ring, events⟩ ∧
          ring.run 9 = some (report, spent) ∧ report.result = .ok 5 :=
      ⟨_, _, _, _, rfl, rfl, rfl⟩
    refine ⟨ring, events, report, spent, built, ran, result, fun s steps halted => ?_⟩
    obtain ⟨r, l, _, _, _, _, signal, same⟩ := (scheduling_independent built ran).1 5 result
    rw [same s steps halted, signal]
  · obtain ⟨ring, events, report, spent, f, built, ran, result, stalled⟩ :
        ∃ ring events report spent f,
          Ring.build 9 listener [1, 2] .feedback {} = some ⟨.ok ring, events⟩ ∧
            ring.run 9 = some (report, spent) ∧ report.result = .error f ∧ f.cause = .stalled :=
      ⟨_, _, _, _, _, rfl, rfl, rfl, rfl⟩
    exact ⟨ring, events, report, spent, built, ran,
      (scheduling_independent built ran).2 f result stalled⟩

end CellMachine.Amplifier
