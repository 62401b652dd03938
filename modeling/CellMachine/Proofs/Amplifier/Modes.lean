import Mathlib.Data.List.Chain
import CellMachine.Proofs.Amplifier.Progress
import CellMachine.Proofs.Amplifier.Scheduling

/-! # A chain is a ring whose turn does not come back

The mode of a ring matters in one place only: when an amplifier waits and nothing is pending, a
chain is stuck, and with feedback the turn is passed on. A chain that does not get stuck is
therefore played round by round like a ring with feedback. Along a chain the turn is passed on by
amplifiers that have just halted, so it only goes forward and the chain never stalls.
-/

namespace CellMachine.Amplifier

/-- A chain has ended at an amplifier that waits for input with no signal to relay. -/
def Stuck (result : Except Failure Cell) : Prop :=
  ∃ index phase, result = .error
    ((Cause.preconditionViolated.within .nothingToRelay).within (.amplifierWithPhase index phase))

namespace Relay

variable {last : Nat} {budget : Nat} {config : Config} {r r' : Relay last} {events : List Event}

/-! ## Rounds in lock-step -/

/-- The current amplifier waits and nothing is pending. -/
def Drained (r : Relay last) : Prop :=
  (r.state r.current).isHalted = false ∧ r.pending = []

private theorem stuck_of_drained (drained : r.Drained) (budget : Nat) (config : Config) :
    ∃ result, r.round budget .chain config = some (.done result []) ∧ Stuck result := by
  obtain ⟨alive, pending⟩ := drained
  cases state : r.state r.current with
  | halted buffer => simp [state, Slot.State.isHalted] at alive
  | waiting computer => exact ⟨_, round_of_ends (.stuck state pending rfl), _, _, rfl⟩

/-- The mode does not matter unless the current amplifier waits and nothing is pending. -/
theorem round_eq_of_mode (busy : ¬ r.Drained) (mode other : Mode) :
    r.round budget mode config = r.round budget other config := by
  have slot : r.slot.state = r.state r.current := rfl
  unfold round
  rw [slot]
  cases state : r.state r.current with
  | halted buffer => rfl
  | waiting computer =>
    cases pending : r.pending with
    | cons signal rest => rfl
    | nil => exact (busy ⟨by rw [state]; rfl, pending⟩).elim

/-- A chain that does not get stuck is played like a ring with feedback. -/
theorem play_eq_of_mode {rounds : Nat} {log : Array Event}
    (free : ∀ report, r.play budget .chain config rounds log = some report →
      ¬ Stuck report.result) (mode : Mode) :
    r.play budget mode config rounds log = r.play budget .chain config rounds log := by
  induction rounds generalizing r log with
  | zero => rfl
  | succ rounds ih =>
    unfold play at free ⊢
    have busy : ¬ r.Drained := by
      intro drained
      obtain ⟨result, played, stuck⟩ := stuck_of_drained drained budget config
      rw [played] at free
      exact free _ rfl stuck
    rw [round_eq_of_mode busy mode .chain]
    cases played : r.round budget .chain config with
    | none => rfl
    | some round =>
      cases round with
      | done result events => rfl
      | next r' events =>
        rw [played] at free
        exact ih free

/-! ## The turn goes forward -/

/-- The turn goes forward along a chain: the amplifiers behind the current one wait, and if the
current one has halted it did so in the round before. -/
structure Forward (r : Relay last) : Prop where
  waiting : ∀ k, r.current < k → (r.state k).isHalted = false
  lively : (r.state r.current).isHalted → r.idle = 0

/-- An amplifier other than the last is followed by the next. -/
theorem val_current_passed (inner : r.current ≠ Fin.last last) :
    r.passed.current.val = r.current.val + 1 := by
  rw [current_passed, Fin.val_add_one, if_neg inner]

private theorem Forward.alive_passed (forward : r.Forward) (inner : r.current ≠ Fin.last last) :
    (r.passed.state r.passed.current).isHalted = false := by
  have later : r.current < r.passed.current := by
    rw [Fin.lt_def, val_current_passed inner]
    exact Nat.lt_succ_self _
  rw [state_passed, Function.update_of_ne later.ne']
  exact forward.waiting _ later

theorem Forward.move (forward : r.Forward) (moves : r.Moves budget .chain config r' events) :
    r'.Forward := by
  cases moves with
  | @feed _ _ rest _ state =>
    refine ⟨fun k behind => ?_, fun _ => rfl⟩
    rw [current_fed] at behind
    rw [state_fed, Function.update_of_ne behind.ne']
    exact forward.waiting k behind
  | pass quiet inner =>
    -- Along a chain only an amplifier that has halted passes the turn on, and never the last one.
    have halted := quiet.resolve_right fun drained => drained.2 rfl
    have alive := forward.alive_passed (inner halted)
    refine ⟨fun k behind => ?_, fun haltedToo => ?_⟩
    · have later : r.current < k := by
        rw [Fin.lt_def, val_current_passed (inner halted)] at behind
        exact Fin.lt_def.mpr (by omega)
      rw [state_passed, Function.update_of_ne later.ne']
      exact forward.waiting k later
    · cases alive.symm.trans haltedToo

/-- While the turn goes forward the relay does not stall. -/
theorem Forward.not_stalls (forward : r.Forward) : ¬ r.Stalls .chain := by
  intro stalls
  have halted := stalls.quiet.resolve_right fun drained => drained.2 rfl
  have single : last = 0 := Nat.le_zero.mp (forward.lively halted ▸ stalls.idle)
  subst single
  exact stalls.inner halted (Subsingleton.elim (α := Fin 1) _ _)

def fedIn (budget : Nat) (mode : Mode) (config : Config) :
    (rounds : Nat) → Relay last → List (Fin (last + 1))
  | 0, _ => []
  | rounds + 1, r =>
    let fed := if r.Feeds then [r.current] else []
    match r.round budget mode config with
    | some (.next r' _) => fed ++ fedIn budget mode config rounds r'
    | _ => fed

/-- Along a chain each amplifier is fed until it halts and then the next one. -/
theorem Forward.isChain_fedIn (forward : r.Forward) (budget : Nat) (config : Config)
    (rounds : Nat) :
    (r.fedIn budget .chain config rounds).IsChain (fun a b => b = a ∨ b.val = a.val + 1) ∧
      ∀ k ∈ (r.fedIn budget .chain config rounds).head?,
        k.val = r.current.val + if (r.state r.current).isHalted then 1 else 0 := by
  induction rounds generalizing r with
  | zero => simp [fedIn]
  | succ rounds ih =>
    have alone : (if r.Feeds then [r.current] else []).IsChain
        (fun a b => b = a ∨ b.val = a.val + 1) ∧
          ∀ k ∈ (if r.Feeds then [r.current] else []).head?,
            k.val = r.current.val + if (r.state r.current).isHalted then 1 else 0 := by
      split
      · next feeds => simp [feeds.1]
      · simp
    -- Whoever is fed first afterwards is the amplifier that has the turn then.
    unfold fedIn
    rcases played : r.round budget .chain config with _ | ⟨r', events⟩ | ⟨result, events⟩
    · exact alone
    · have moves := moves_of_round played
      have after := ih (forward.move moves)
      cases moves with
      | feed waiting pending =>
        have feeds := feeds_iff.mpr ⟨_, _, _, waiting, pending⟩
        simp only [if_pos feeds, List.singleton_append]
        refine ⟨after.1.cons fun k first => ?_, ?_⟩
        · have next := after.2 k first
          rw [current_fed] at next
          split at next
          · exact .inr next
          · exact .inl (Fin.ext next)
        · simp [feeds.1]
      | pass quiet inner =>
        have halted := quiet.resolve_right fun drained => drained.2 rfl
        have passes : ¬ r.Feeds := fun feeds => by simp [feeds.1] at halted
        simp only [if_neg passes, List.nil_append, halted]
        refine ⟨after.1, fun k first => ?_⟩
        rw [after.2 k first, val_current_passed (inner halted), forward.alive_passed (inner halted)]
        rfl
    · exact alone

end Relay

/-! ## Rings -/

variable {budget started : Nat} {program : Memory} {phases : List Cell} {mode : Mode}
  {config : Config} {ring spent : Ring} {events : List Event} {report : Report Cell}

/-- A chain that does not get stuck comes to the same result in any mode and reports the same. -/
theorem relay_eq_of_mode
    (free : ∀ report, relay budget program phases .chain config = some report →
      ¬ Stuck report.result) (mode : Mode) :
    relay budget program phases mode config = relay budget program phases .chain config := by
  unfold relay at free ⊢
  rw [Ring.build_mode budget program phases .chain mode config]
  cases built : Ring.build budget program phases .chain config with
  | none => rfl
  | some report =>
    obtain ⟨result, events⟩ := report
    cases result with
    | error f => rfl
    | ok ring =>
      obtain ⟨chain, -, fresh, -⟩ := Ring.started_of_build built
      have freely (report : Report Cell)
          (played : ring.opening.play budget .chain ring.config budget #[] = some report) :
          ¬ Stuck report.result := by
        refine free ⟨report.result, events ++ report.events⟩ ?_
        simp [built, Ring.run_of_fresh fresh, chain, played]
      have same := Relay.play_eq_of_mode freely mode
      have other : ({ ring with mode } : Ring).run budget =
          (ring.run budget).map fun ran => (ran.1, { ran.2 with mode }) := by
        rw [Ring.run_of_fresh fresh, Ring.run_of_fresh (by exact fresh), Option.map_map, chain,
          ← same]
        rfl
      simp only [bind, Option.bind, Option.map_some, Report.map, Except.map, other]
      cases ring.run budget with
      | none => rfl
      | some ran => rfl

/-- All the amplifiers of a ring wait when it starts to run. -/
theorem Ring.alive_opening
    (built : Ring.build started program phases mode config = some ⟨.ok ring, events⟩)
    (k : Fin (ring.last + 1)) : (ring.opening.state k).isHalted = false := by
  obtain ⟨-, -, -, -, startedAt⟩ := started_of_build built
  obtain ⟨_, -, _, _, -, -, -, slot⟩ := startedAt k
  rw [Relay.state, opening, slot]
  rfl

private theorem Ring.forward_opening
    (built : Ring.build started program phases mode config = some ⟨.ok ring, events⟩) :
    ring.opening.Forward :=
  ⟨fun k _ => alive_opening built k, fun _ => rfl⟩

theorem Ring.Reaches.forward {r : Relay ring.last} {l : Ledger ring.last} {log : List Event}
    (built : Ring.build started program phases .chain config = some ⟨.ok ring, events⟩)
    (reached : ring.Reaches budget r l log) : r.Forward := by
  obtain ⟨chain, -⟩ := started_of_build built
  induction reached with
  | start => exact forward_opening built
  | round _ played ih => exact ih.move (Relay.moves_of_round (chain ▸ played))

/-- The causes for which a ring can fail when it runs. -/
theorem Ring.cause_of_run {f : Failure}
    (built : Ring.build started program phases mode config = some ⟨.ok ring, events⟩)
    (ran : ring.run budget = some (report, spent)) (failed : report.result = .error f) :
    f.cause.OfInstruction ∨ f.cause = .noSignal ∨
      (f.cause = .preconditionViolated ∧ mode = .chain) ∨
      (f.cause = .stalled ∧ ∃ r l log, ring.Reaches budget r l log ∧ r.Stalls mode) := by
  obtain ⟨sameMode, sameConfig, fresh, -⟩ := started_of_build built
  obtain ⟨r, l, log, reported, reached, done, -⟩ := finishes_of_run fresh ran
  rw [failed, sameMode, sameConfig] at done
  obtain known | silent | stuck | ⟨stalled, stalls⟩ :=
    (reached.balanced built).cause_of_ends (Relay.ends_of_round done)
  · exact .inl known
  · exact .inr (.inl silent)
  · exact .inr (.inr (.inl stuck))
  · exact .inr (.inr (.inr ⟨stalled, r, l, log, reached, stalls⟩))

/-- A chain and a ring with feedback agree wherever the chain does not get stuck: they come to the
same result and report the same. A chain never stalls; its amplifiers are fed in their order, each
until the next has its turn, from the first one on. With feedback no precondition is broken by a
ring that runs. -/
theorem modes_agree (program : Memory) (phases : List Cell) (config : Config) :
    (∀ budget, (∀ report, relay budget program phases .chain config = some report →
        ¬ Stuck report.result) →
      relay budget program phases .feedback config =
        relay budget program phases .chain config) ∧
    (∀ started ring events,
      Ring.build started program phases .chain config = some ⟨.ok ring, events⟩ →
      (∀ budget report spent, ring.run budget = some (report, spent) →
        Avoids .stalled report.result) ∧
      ∀ budget rounds,
        (ring.opening.fedIn budget ring.mode ring.config rounds).IsChain
            (fun a b => b = a ∨ b.val = a.val + 1) ∧
          ∀ k ∈ (ring.opening.fedIn budget ring.mode ring.config rounds).head?, k.val = 0) ∧
    ∀ started ring events mode, mode ≠ .chain →
      Ring.build started program phases mode config = some ⟨.ok ring, events⟩ →
      ∀ budget report spent, ring.run budget = some (report, spent) →
        Avoids .preconditionViolated report.result := by
  refine ⟨?_, ?_, ?_⟩
  · intro budget free
    exact relay_eq_of_mode free .feedback
  · intro started ring events built
    obtain ⟨chain, -⟩ := Ring.started_of_build built
    have forward := Ring.forward_opening built
    refine ⟨?_, fun budget rounds => ?_⟩
    · intro budget report spent ran f failed
      obtain known | silent | ⟨stuck, -⟩ | ⟨-, r, l, log, reached, stalls⟩ :=
        Ring.cause_of_run built ran failed
      · exact known.ne (by simp [Cause.OfInstruction])
      · simp [silent]
      · simp [stuck]
      · exact ((reached.forward built).not_stalls stalls).elim
    · rw [chain]
      obtain ⟨ordered, first⟩ := forward.isChain_fedIn budget ring.config rounds
      refine ⟨ordered, fun k here => ?_⟩
      rw [first k here, Ring.alive_opening built]
      rfl
  · intro started ring events mode feedback built budget report spent ran f failed
    obtain known | silent | ⟨-, chain⟩ | ⟨stalled, -⟩ := Ring.cause_of_run built ran failed
    · exact known.ne (by simp [Cause.OfInstruction])
    · simp [silent]
    · exact (feedback chain).elim
    · simp [stalled]

theorem modes_agree_doubler_listener :
    (∃ report, relay 9 doubler [1, 2] .chain { seed := 5 } = some report ∧
      report.result = .ok 5 ∧ relay 9 doubler [1, 2] .feedback { seed := 5 } = some report) ∧
    (∃ ring events report spent,
      Ring.build 9 listener [1, 2] .chain {} = some ⟨.ok ring, events⟩ ∧
        ring.run 9 = some (report, spent) ∧ ∃ f, report.result = .error f ∧ f.cause ≠ .stalled) ∧
    (∃ ring events,
      Ring.build 9 doubler [1, 2] .chain { seed := 5 } = some ⟨.ok ring, events⟩ ∧
        (ring.opening.fedIn 9 ring.mode ring.config 9).map Fin.val = [0, 1] ∧
          (ring.opening.fedIn 9 ring.mode ring.config 9).IsChain
            (fun a b => b = a ∨ b.val = a.val + 1)) ∧
    ∃ ring events report spent f,
      Ring.build 9 listener [1, 2] .feedback {} = some ⟨.ok ring, events⟩ ∧
        ring.run 9 = some (report, spent) ∧ report.result = .error f ∧
          f.cause ≠ .preconditionViolated := by
  refine ⟨?_, ?_, ?_, ?_⟩
  · obtain ⟨report, relayed, signal⟩ : ∃ report,
        relay 9 doubler [1, 2] .chain { seed := 5 } = some report ∧ report.result = .ok 5 :=
      ⟨_, rfl, rfl⟩
    refine ⟨report, relayed, signal, ?_⟩
    rw [← relayed]
    refine (modes_agree doubler [1, 2] { seed := 5 }).1 9 fun other same stuck => ?_
    cases relayed.symm.trans same
    obtain ⟨_, _, failed⟩ := stuck
    cases signal.symm.trans failed
  · obtain ⟨ring, events, report, spent, f, built, ran, failed⟩ : ∃ ring events report spent f,
        Ring.build 9 listener [1, 2] .chain {} = some ⟨.ok ring, events⟩ ∧
          ring.run 9 = some (report, spent) ∧ report.result = .error f :=
      ⟨_, _, _, _, _, rfl, rfl, rfl⟩
    exact ⟨ring, events, report, spent, built, ran, f, failed,
      ((modes_agree listener [1, 2] {}).2.1 9 ring events built).1 9 report spent ran f failed⟩
  · obtain ⟨ring, events, built, fed⟩ : ∃ ring events,
        Ring.build 9 doubler [1, 2] .chain { seed := 5 } = some ⟨.ok ring, events⟩ ∧
          (ring.opening.fedIn 9 ring.mode ring.config 9).map Fin.val = [0, 1] :=
      ⟨_, _, rfl, rfl⟩
    exact ⟨ring, events, built, fed,
      (((modes_agree doubler [1, 2] { seed := 5 }).2.1 9 ring events built).2 9 9).1⟩
  · obtain ⟨ring, events, report, spent, f, built, ran, failed⟩ : ∃ ring events report spent f,
        Ring.build 9 listener [1, 2] .feedback {} = some ⟨.ok ring, events⟩ ∧
          ring.run 9 = some (report, spent) ∧ report.result = .error f :=
      ⟨_, _, _, _, _, rfl, rfl, rfl⟩
    exact ⟨ring, events, report, spent, f, built, ran, failed,
      (modes_agree listener [1, 2] {}).2.2 9 ring events .feedback nofun built 9 report spent ran f
        failed⟩

end CellMachine.Amplifier
