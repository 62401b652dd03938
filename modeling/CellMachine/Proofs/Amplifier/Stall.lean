import Mathlib.Data.Fintype.Card
import CellMachine.Proofs.Amplifier.Chain
import CellMachine.Proofs.Amplifier.Modes
import CellMachine.Proofs.Machine.LifeCycle

/-! # Stalls are deadlocks

A relay stalls exactly when nothing is left to relay and the last amplifier waits: then every
amplifier that has not halted stands at an instruction that reads input, and none of them will ever
be fed. Passing the turn on without feeding anybody either empties a buffer or counts as idle, so
only so many rounds in a row can do so. A ring that never comes to a result therefore waits for an
amplifier that runs for ever, or feeds its amplifiers for ever.
-/

namespace CellMachine.Amplifier

open Relation

namespace Relay

variable {last : Nat} {budget : Nat} {mode : Mode} {config : Config} {r r' : Relay last}
  {n : ℕ}

def handedOn (r : Relay last) : Relay last :=
  { (r.setState (r.state r.current).emptied).noteSignal (r.state r.current).buffer with
    pending := (r.state r.current).buffer }

/-- Nothing is left to relay, and the last amplifier has not halted. -/
structure Silent (r : Relay last) : Prop where
  buffers : ∀ k, r.buffer k = []
  pending : r.pending = []
  alive : (r.state (Fin.last last)).isHalted = false

/-- A silent relay in which every amplifier that has not halted waits at an instruction that reads
input. -/
structure Deadlocked (r : Relay last) : Prop extends r.Silent where
  waiting : ∀ k computer, r.state k = .waiting computer →
    computer.machine.halted = false ∧ computer.machine.Faces .input

/-! ## Stalls -/

theorem Stalls.round_eq (stalls : r.Stalls mode) (budget : Nat) (config : Config) :
    r.round budget mode config = some (r.handedOn.pass (r.drops config)) := by
  rw [round_of_quiet stalls.quiet stalls.inner, ← pass_eq]
  rfl

theorem Stalls.pass_eq (stalls : r.Stalls mode) (events : List Event) :
    r.handedOn.pass events =
      .done (.error (Cause.stalled.within (.amplifier r.current))) events := by
  refine (Relay.pass_eq r events).trans ?_
  rw [passOn, if_pos ⟨stalls.empty, stalls.idle⟩]

theorem Stalls.silent (stalls : r.Stalls mode) (rested : r.Rested) : r.handedOn.Silent := by
  have quiet (k : Fin (last + 1)) : r.passed.Quiet k :=
    quiet_passed stalls.inner (.inr (stalls.all_quiet rested k))
  exact ⟨fun k => (quiet k).1, stalls.empty, (quiet _).2 rfl⟩

namespace Silent

private theorem round_eq (silent : r.Silent) (feedback : mode ≠ .chain) :
    r.round budget mode config = some (r.passOn []) := by
  have quiet : r.drops config = [] := if_pos silent.pending
  rw [← quiet]
  refine round_of_quiet (.inr ⟨silent.pending, feedback⟩) fun halted outer => ?_
  rw [outer, silent.alive] at halted
  cases halted

theorem passed (silent : r.Silent) : r.passed.Silent where
  buffers k := by
    rw [buffer_passed, silent.buffers k, ite_self]
  pending := silent.buffers r.current
  alive := by
    by_cases here : Fin.last last = r.current
    · simp [← here, silent.alive]
    · simp [here, silent.alive]

private theorem idle_passed (silent : r.Silent) : r.passed.idle = r.idle + 1 := by
  have empty : (r.state r.current).buffer = [] := silent.buffers r.current
  simp [Relay.passed, empty]

private theorem play_of_idle (silent : r.Silent) (feedback : mode ≠ .chain) (idle : last ≤ r.idle)
    (budget : Nat) (config : Config) (rounds : Nat) (log : Array Event) :
    r.play budget mode config (rounds + 1) log =
      some ⟨.error (Cause.stalled.within (.amplifier r.current)), log.toList⟩ := by
  have stalls : (r.state r.current).buffer = [] ∧ last ≤ r.idle :=
    ⟨silent.buffers r.current, idle⟩
  rw [Relay.play, silent.round_eq feedback, passOn, if_pos stalls]
  simp

/-- A silent relay stalls as soon as the turn has gone round the ring. -/
theorem play_eq (silent : r.Silent) (feedback : mode ≠ .chain) {rounds : Nat}
    (enough : last ≤ r.idle + rounds) (budget : Nat) (config : Config) (log : Array Event) :
    ∃ k, r.play budget mode config (rounds + 1) log =
      some ⟨.error (Cause.stalled.within (.amplifier k)), log.toList⟩ := by
  induction rounds generalizing r with
  | zero => exact ⟨_, silent.play_of_idle feedback enough budget config 0 log⟩
  | succ rounds ih =>
    by_cases idle : last ≤ r.idle
    · exact ⟨_, silent.play_of_idle feedback idle budget config (rounds + 1) log⟩
    · have further : last ≤ r.passed.idle + rounds := by
        rw [silent.idle_passed]
        omega
      obtain ⟨k, played⟩ := ih silent.passed further
      refine ⟨k, ?_⟩
      rw [Relay.play, silent.round_eq feedback, passOn, if_neg fun stalls => idle stalls.2]
      simpa using played

/-- No amplifier of a silent relay is fed any more. -/
theorem fedIn_eq_nil (silent : r.Silent) (feedback : mode ≠ .chain) (budget : Nat)
    (config : Config) (rounds : Nat) : r.fedIn budget mode config rounds = [] := by
  induction rounds generalizing r with
  | zero => rfl
  | succ rounds ih =>
    have unfed : ¬ r.Feeds := fun feeds => feeds.2 silent.pending
    rw [fedIn, silent.round_eq feedback, passOn]
    split
    · next r' events same =>
      split at same
      · cases same
      · cases same
        rw [ih silent.passed, if_neg unfed]
        rfl
    · rw [if_neg unfed]

end Silent

/-! ## Rounds in which no amplifier is fed -/

def laden (r : Relay last) : Finset (Fin (last + 1)) :=
  {k | r.buffer k ≠ []}

private theorem mem_laden {k : Fin (last + 1)} : k ∈ r.laden ↔ r.buffer k ≠ [] := by
  simp [laden]

/-- A bound for the rounds that can follow without an amplifier being fed. -/
def slack (r : Relay last) : ℕ :=
  r.laden.card + (last - r.idle)

private theorem slack_lt (r : Relay last) : r.slack < 2 * (last + 1) := by
  have bound : r.laden.card ≤ last + 1 := by
    simpa using r.laden.card_le_univ
  unfold slack
  omega

/-- Passing the turn on empties a buffer or counts as idle. -/
theorem slack_passed (lively : (r.state r.current).buffer = [] → r.idle < last) :
    r.passed.slack < r.slack := by
  have laden : r.passed.laden = r.laden.erase r.current := by
    ext k
    rw [mem_laden, buffer_passed, Finset.mem_erase, mem_laden]
    by_cases here : k = r.current <;> simp [here]
  -- An empty buffer leaves the laden amplifiers as they are, but then the turn counts as idle.
  by_cases empty : (r.state r.current).buffer = []
  · have absent : r.current ∉ r.laden := fun present => mem_laden.mp present empty
    have idle : r.passed.idle = r.idle + 1 := by simp [passed, empty]
    have short := lively empty
    rw [slack, slack, laden, Finset.erase_eq_of_notMem absent, idle]
    omega
  · have present : r.current ∈ r.laden := mem_laden.mpr empty
    have idle : r.passed.idle = r.idle := by simp [passed, empty]
    have fewer := Finset.card_erase_lt_of_mem present
    rw [slack, slack, laden, idle]
    omega

/-- The relay goes on for a number of rounds in which no amplifier is fed. -/
inductive Coasts (mode : Mode) (config : Config) : ℕ → Relay last → Relay last → Prop
  | refl (r : Relay last) : Coasts mode config 0 r r
  | round {n : ℕ} {r r' r'' : Relay last} (unfed : ¬ r.Feeds) (goes : r.Goes mode config r')
      (rest : Coasts mode config n r' r'') : Coasts mode config (n + 1) r r''

private theorem slack_of_goes (unfed : ¬ r.Feeds) (goes : r.Goes mode config r') :
    r'.slack < r.slack := by
  obtain ⟨budget, events, moves⟩ := goes
  cases moves with
  | feed waiting pending => exact (unfed (feeds_iff.mpr ⟨_, _, _, waiting, pending⟩)).elim
  | pass quiet inner lively => exact slack_passed lively

private theorem Coasts.slack_le (coasts : Coasts mode config n r r') : n + r'.slack ≤ r.slack := by
  induction coasts with
  | refl => omega
  | round unfed goes _ ih =>
    have less := slack_of_goes unfed goes
    omega

/-- Not twice as many rounds as there are amplifiers can go on without one being fed. -/
theorem Coasts.lt (coasts : Coasts mode config n r r') : n < 2 * (last + 1) :=
  (Nat.le_of_add_right_le coasts.slack_le).trans_lt r.slack_lt

/-- A round in which no amplifier is fed is played whatever the budget. -/
theorem exists_round_of_unfed (mode : Mode) (config : Config) (unfed : ¬ r.Feeds) :
    ∃ round, ∀ budget, r.round budget mode config = some round := by
  have slot : r.slot.state = r.state r.current := rfl
  unfold round
  rw [slot]
  cases state : r.state r.current with
  | halted buffer => exact ⟨_, fun _ => rfl⟩
  | waiting computer =>
    cases pending : r.pending with
    | nil => exact ⟨_, fun _ => rfl⟩
    | cons signal rest => exact (unfed (feeds_iff.mpr ⟨_, _, _, state, pending⟩)).elim

/-- After some rounds an amplifier is fed or the relay is done. -/
theorem exists_coasts (mode : Mode) (config : Config) (r : Relay last) :
    ∃ n r', Coasts mode config n r r' ∧ (r'.Feeds ∨ ∃ result events, ∀ budget,
      r'.round budget mode config = some (.done result events)) := by
  induction size : r.slack using Nat.strong_induction_on generalizing r with
  | _ size ih =>
    subst size
    by_cases feeds : r.Feeds
    · exact ⟨0, r, .refl r, .inl feeds⟩
    · obtain ⟨round, played⟩ := exists_round_of_unfed mode config feeds
      cases round with
      | done result events => exact ⟨0, r, .refl r, .inr ⟨result, events, played⟩⟩
      | next r' events =>
        have goes : r.Goes mode config r' := ⟨0, events, moves_of_round (played 0)⟩
        obtain ⟨n, final, coasts, outcome⟩ := ih _ (slack_of_goes feeds goes) r' rfl
        exact ⟨n + 1, final, .round feeds goes coasts, outcome⟩

private theorem coasts_of_unfed {f : ℕ → Relay last}
    (goes : ∀ i, (f i).Goes mode config (f (i + 1))) {i : ℕ} (unfed : ∀ j ≥ i, ¬ (f j).Feeds)
    (n : ℕ) : Coasts mode config n (f i) (f (i + n)) := by
  induction n generalizing i with
  | zero => exact .refl _
  | succ n ih =>
    have rest := ih (i := i + 1) fun j later => unfed j (Nat.le_of_succ_le later)
    rw [Nat.add_right_comm, Nat.add_assoc] at rest
    exact .round (unfed i le_rfl) (goes i) rest

/-- A relay that goes on for ever feeds its amplifiers again and again. -/
theorem exists_feeds {f : ℕ → Relay last} (goes : ∀ i, (f i).Goes mode config (f (i + 1)))
    (i : ℕ) : ∃ j ≥ i, (f j).Feeds := by
  by_contra never
  have unfed : ∀ j ≥ i, ¬ (f j).Feeds := fun j later feeds => never ⟨j, later, feeds⟩
  exact (coasts_of_unfed goes unfed (2 * (last + 1))).lt.false

end Relay

/-! ## Rings -/

variable {program : Memory} {config : Config} {phases : List Cell} {mode : Mode} {ring : Ring}
  {started budget : Nat} {events log : List Event} {r : Relay ring.last} {l : Ledger ring.last}

/-- An amplifier that waits stands at an instruction that reads input. -/
theorem Balanced.faces_input {last : Nat} {phases : Fin (last + 1) → Cell} {r : Relay last}
    {l : Ledger last} {computer : Computer} {k : Fin (last + 1)}
    (balanced : Balanced program config phases r l log) (waiting : r.state k = .waiting computer) :
    computer.machine.halted = false ∧ computer.machine.Faces .input := by
  refine ⟨balanced.alive waiting, ?_⟩
  obtain ⟨_, -, o, rests, stands, -⟩ := balanced.reflects k
  rw [waiting] at stands
  obtain ⟨starved, -, pc, memory⟩ := stands
  obtain ⟨ins, decoded, op⟩ := (rests.input_of_starved starved).2
  exact ⟨ins, by rw [pc, memory, decoded], op⟩

/-- A ring that stalls has come to a deadlock. -/
theorem Ring.Reaches.deadlocked
    (built : Ring.build started program phases mode config = some ⟨.ok ring, events⟩)
    (reached : ring.Reaches budget r l log) (stalls : r.Stalls mode) : r.handedOn.Deadlocked := by
  -- The amplifiers are in the same states once the turn has been passed on.
  have balanced := (reached.balanced built).pass (stalls.quiet.imp_right And.left)
  have rested := (reached.tracked built).2
  exact ⟨stalls.silent rested, fun k computer waiting => balanced.faces_input waiting⟩

/-- The ring can come to this relay when it runs, with a budget large enough for each round. -/
def Ring.Attains (ring : Ring) (r : Relay ring.last) : Prop :=
  ReflTransGen (Relay.Goes ring.mode ring.config) ring.opening r

/-- A ring that never comes to a result goes on from every relay whose round is played. -/
theorem Ring.Attains.exists_goes (attained : ring.Attains r) (fresh : ring.spent = false)
    (endless : ∀ budget, ring.run budget = none)
    (played : r.round budget ring.mode ring.config ≠ none) :
    ∃ r', r.Goes ring.mode ring.config r' ∧ ring.Attains r' := by
  rcases round : r.round budget ring.mode ring.config with _ | ⟨r', events⟩ | ⟨result, events⟩
  · exact (played round).elim
  · have goes : r.Goes ring.mode ring.config r' := ⟨budget, events, Relay.moves_of_round round⟩
    exact ⟨r', goes, attained.tail goes⟩
  · have comes : ring.opening.ComesTo ring.mode ring.config result :=
      ⟨r, budget, events, attained, Relay.ends_of_round round⟩
    obtain ⟨enough, report, spent, ran, -⟩ := Ring.exists_run fresh comes
    cases (endless enough).symm.trans ran

/-- A ring that never comes to a result waits for an amplifier that runs for ever or feeds its
amplifiers for ever. -/
theorem Ring.endless_cases (fresh : ring.spent = false)
    (endless : ∀ budget, ring.run budget = none) :
    (∃ r computer signal rest, ring.Attains r ∧ r.state r.current = .waiting computer ∧
      r.pending = signal :: rest ∧ ∀ budget, computer.resume budget signal = none) ∨
    ∃ f : ℕ → Relay ring.last, f 0 = ring.opening ∧
      (∀ i, (f i).Goes ring.mode ring.config (f (i + 1))) ∧ ∀ i, ∃ j ≥ i, (f j).Feeds := by
  by_cases played : ∀ r, ring.Attains r → ∃ budget, r.round budget ring.mode ring.config ≠ none
  · right
    have next (r : { r // ring.Attains r }) : ∃ r' : { r // ring.Attains r },
        r.val.Goes ring.mode ring.config r'.val := by
      obtain ⟨r, attained⟩ := r
      obtain ⟨budget, some⟩ := played r attained
      obtain ⟨r', goes, further⟩ := attained.exists_goes fresh endless some
      exact ⟨⟨r', further⟩, goes⟩
    choose next goes using next
    let f (i : ℕ) : Relay ring.last := (next^[i] ⟨ring.opening, .refl⟩).val
    have step (i : ℕ) : (f i).Goes ring.mode ring.config (f (i + 1)) := by
      simp only [f, Function.iterate_succ_apply']
      exact goes _
    exact ⟨f, rfl, step, Relay.exists_feeds step⟩
  · left
    simp only [not_forall, not_exists, not_not] at played
    obtain ⟨r, attained, unplayed⟩ := played
    obtain ⟨computer, signal, rest, waiting, pending, -⟩ :=
      Relay.round_eq_none_iff.mp (unplayed 0)
    refine ⟨r, computer, signal, rest, attained, waiting, pending, fun budget => ?_⟩
    obtain ⟨other, value, _, waitingToo, pendingToo, never⟩ :=
      Relay.round_eq_none_iff.mp (unplayed budget)
    cases waiting.symm.trans waitingToo
    cases pending.symm.trans pendingToo
    exact never

/-- A ring stalls exactly in a deadlock, and it cannot go round without feeding an amplifier. When
it stalls, nothing is left to relay, the last amplifier has not halted, and every amplifier that has
not halted waits for input. Conversely, once nothing is left to relay and the last amplifier has not
halted, a ring with feedback stalls within one turn of each amplifier, and no amplifier is fed. In
any mode fewer rounds than twice the number of amplifiers go on between two that feed one, so a ring
that comes to no result waits for a turn that does not end or feeds its amplifiers for ever. -/
theorem Ring.stalled_exactly
    (built : Ring.build started program phases mode config = some ⟨.ok ring, events⟩) :
    (∀ budget report spent f, ring.run budget = some (report, spent) →
      report.result = .error f → f.cause = .stalled →
      ∃ r l log reported, ring.Reaches budget r l log ∧
        r.round budget mode config = some (r.handedOn.pass reported) ∧
          r.handedOn.pass reported = .done (.error f) reported ∧ r.handedOn.Deadlocked) ∧
    (mode ≠ .chain → ∀ r, ring.Attains r → r.Silent →
      (∀ budget rounds, r.fedIn budget mode config rounds = []) ∧
      (∀ budget log, ∃ f, r.play budget mode config ring.size log =
        some ⟨.error f, log.toList⟩ ∧ f.cause = .stalled) ∧
      ∃ budget report spent f, ring.run budget = some (report, spent) ∧
        report.result = .error f ∧ f.cause = .stalled) ∧
    (∀ n (r r' : Relay ring.last), Relay.Coasts mode config n r r' → n < 2 * ring.size) ∧
    (∀ r : Relay ring.last, ∃ n r', Relay.Coasts mode config n r r' ∧
      (r'.Feeds ∨ ∃ result reported, ∀ budget,
        r'.round budget mode config = some (.done result reported))) ∧
    ((∀ budget, ring.run budget = none) →
      (∃ r computer signal rest, ring.Attains r ∧ r.state r.current = .waiting computer ∧
        r.pending = signal :: rest ∧ ∀ budget, computer.resume budget signal = none) ∨
      ∃ f : ℕ → Relay ring.last, f 0 = ring.opening ∧
        (∀ i, (f i).Goes mode config (f (i + 1))) ∧ ∀ i, ∃ j ≥ i, (f j).Feeds) := by
  obtain ⟨rfl, rfl, fresh, -⟩ := started_of_build built
  refine ⟨?_, ?_, fun n r r' coasts => coasts.lt, Relay.exists_coasts _ _, endless_cases fresh⟩
  · intro budget report spent f ran failed stalled
    obtain ⟨r, l, log, reported, reached, done, -⟩ := finishes_of_run fresh ran
    have ends := Relay.ends_of_round (failed ▸ done)
    obtain known | silent | ⟨stuck, -⟩ | ⟨-, stalls⟩ := (reached.balanced built).cause_of_ends ends
    · exact (known.ne (by simp [Cause.OfInstruction]) stalled).elim
    · simp [silent] at stalled
    · simp [stuck] at stalled
    · have round := stalls.round_eq budget ring.config
      have last := stalls.pass_eq (r.drops ring.config)
      obtain rfl : f = Cause.stalled.within (.amplifier r.current) := by
        rw [round, last, failed] at done
        cases done
        rfl
      exact ⟨r, l, log, _, reached, round, last, reached.deadlocked built stalls⟩
  · intro feedback r attained silent
    have play (budget : Nat) (log : Array Event) :=
      silent.play_eq feedback (Nat.le_add_left ring.last r.idle) budget ring.config log
    refine ⟨fun budget => silent.fedIn_eq_nil feedback budget ring.config, ?_, ?_⟩
    · intro budget log
      obtain ⟨k, played⟩ := play budget log
      exact ⟨_, played, rfl⟩
    · obtain ⟨k, played⟩ := play 0 #[]
      have comes := (Relay.comesTo_of_play played).after attained
      obtain ⟨budget, report, spent, ran, result⟩ := exists_run fresh comes
      exact ⟨budget, report, spent, _, ran, result, rfl⟩

/-- A program that reads its phase setting and a signal, and then runs for ever. -/
def spinner : Memory :=
  .ofList [3, 7, 3, 7, 1105, 1, 4, 0]

private theorem spinner_runFrom {m : Machine} (there : m.pc = 4) (memory : m.memory = spinner)
    (budget : Nat) (input : Option Cell) : m.runFrom budget input = none := by
  induction budget generalizing m with
  | zero => rfl
  | succ budget ih =>
    have decoded : Instruction.decode m.memory m.pc = .ok ⟨.jumpIfTrue, 1, 0, 4⟩ := by
      rw [there, memory]
      rfl
    have again : m.step input = .next (m.jump 4) input := by
      simp [Machine.step, decoded]
    rw [Machine.runFrom, again]
    exact ih rfl memory

theorem Ring.stalled_exactly_listener_spinner :
    (∃ ring events report spent f,
      Ring.build 9 listener [1, 2] .feedback {} = some ⟨.ok ring, events⟩ ∧
        ring.run 9 = some (report, spent) ∧ report.result = .error f ∧ f.cause = .stalled ∧
          ∃ r l log, ring.Reaches 9 r l log ∧ r.handedOn.Deadlocked) ∧
    (∃ ring events, Ring.build 9 listener [1, 2] .feedback {} = some ⟨.ok ring, events⟩ ∧
      ∃ r, ring.Attains r ∧ r.Silent ∧
        ∃ f, r.play 0 .feedback {} 2 #[] = some ⟨.error f, []⟩ ∧ f.cause = .stalled) ∧
    ∃ ring events, Ring.build 9 spinner [1] .feedback {} = some ⟨.ok ring, events⟩ ∧
      (∀ budget, ring.run budget = none) ∧
        ((∃ r computer signal rest, ring.Attains r ∧ r.state r.current = .waiting computer ∧
          r.pending = signal :: rest ∧ ∀ budget, computer.resume budget signal = none) ∨
        ∃ f : ℕ → Relay ring.last, f 0 = ring.opening ∧
          (∀ i, (f i).Goes .feedback {} (f (i + 1))) ∧ ∀ i, ∃ j ≥ i, (f j).Feeds) := by
  refine ⟨?_, ?_, ?_⟩
  · obtain ⟨ring, events, report, spent, f, built, ran, failed, stalled⟩ :
        ∃ ring events report spent f,
          Ring.build 9 listener [1, 2] .feedback {} = some ⟨.ok ring, events⟩ ∧
            ring.run 9 = some (report, spent) ∧ report.result = .error f ∧ f.cause = .stalled :=
      ⟨_, _, _, _, _, rfl, rfl, rfl, rfl⟩
    obtain ⟨r, l, log, _, reached, -, -, deadlocked⟩ :=
      (stalled_exactly built).1 9 report spent f ran failed stalled
    exact ⟨ring, events, report, spent, f, built, ran, failed, stalled, r, l, log, reached,
      deadlocked⟩
  · obtain ⟨ring, events, built, two, r, events', next, buffers, pending, alive⟩ :
        ∃ ring events, Ring.build 9 listener [1, 2] .feedback {} = some ⟨.ok ring, events⟩ ∧
          ring.size = 2 ∧ ∃ r events',
            ring.opening.round 9 ring.mode ring.config = some (.next r events') ∧
              (∀ k, r.buffer k = []) ∧ r.pending = [] ∧
                (r.state (Fin.last ring.last)).isHalted = false := by
      exact ⟨_, _, rfl, rfl, _, _, rfl, Fin.forall_fin_two.mpr ⟨rfl, rfl⟩, rfl, rfl⟩
    have attained : ring.Attains r := .single ⟨9, events', Relay.moves_of_round next⟩
    have silent : r.Silent := ⟨buffers, pending, alive⟩
    obtain ⟨-, stalls, -⟩ := (stalled_exactly built).2.1 nofun r attained silent
    rw [two] at stalls
    exact ⟨ring, events, built, r, attained, silent, stalls 0 #[]⟩
  · obtain ⟨ring, events, computer, m, built, fresh, waiting, pending, alive, first, there,
      memory⟩ : ∃ ring events computer m,
          Ring.build 9 spinner [1] .feedback {} = some ⟨.ok ring, events⟩ ∧ ring.spent = false ∧
            ring.opening.state ring.opening.current = .waiting computer ∧
              ring.opening.pending = [0] ∧ computer.machine.halted = false ∧
                computer.machine.reset.step (some 0) = .next m none ∧ m.pc = 4 ∧
                  m.memory = spinner :=
      ⟨_, _, _, _, rfl, rfl, rfl, rfl, rfl, rfl, rfl, rfl⟩
    have never (budget : Nat) : computer.resume budget 0 = none := by
      have stuck : computer.machine.reset.runFrom budget (some 0) = none := by
        cases budget with
        | zero => rfl
        | succ budget =>
          rw [Machine.runFrom, first]
          exact spinner_runFrom there memory budget none
      have executed : computer.machine.execute budget (some 0) = none := by
        rw [Machine.execute, if_neg (by simp [alive])]
        exact stuck
      rw [Computer.resume, Computer.execute, executed]
      rfl
    have endless (budget : Nat) : ring.run budget = none := by
      rw [Ring.run_of_fresh fresh]
      cases budget with
      | zero => rfl
      | succ budget =>
        have unplayed : ring.opening.round (budget + 1) ring.mode ring.config = none :=
          Relay.round_eq_none_iff.mpr ⟨computer, 0, [], waiting, pending, never _⟩
        rw [Relay.play, unplayed]
        rfl
    exact ⟨ring, events, built, endless, (stalled_exactly built).2.2.2.2 endless⟩

end CellMachine.Amplifier
