import CellMachine.Proofs.Amplifier.Ledger
import CellMachine.Proofs.Amplifier.Progress
import CellMachine.Proofs.Amplifier.Search
import CellMachine.Proofs.Computer.Padding

/-! # Rings with more memory

A minimum size that is asked for in addition gives every amplifier of a ring the same number of
zeros behind its cells. Starting the amplifiers, playing rounds and searching for the greatest
signal then go the same way as without it: the first amplifier that is out of bounds ends what the
ring does, so a result that is no such failure has been reached without one.
-/

namespace CellMachine

namespace Amplifier

/-! ## Choices -/

/-- The second choices are the first ones with one request for a minimum size added. -/
structure Config.Enlarges (size : Cell) (config larger : Config) : Prop where
  seed : larger.seed = config.seed
  active : larger.active = config.active
  settings : Setting.Enlarges size config.settings larger.settings

variable {size : Cell} {config larger : Config}

private theorem Config.foldl_computers (choices : List Choice) (config : Config)
    (settings : List Setting) :
    (choices.foldl apply config).seed = (choices.foldl apply { config with settings }).seed ∧
      (choices.foldl apply config).active = (choices.foldl apply { config with settings }).active ∧
        ∃ more, (choices.foldl apply config).settings = config.settings ++ more ∧
          (choices.foldl apply { config with settings }).settings = settings ++ more := by
  induction choices generalizing config settings with
  | nil => exact ⟨rfl, rfl, [], by simp, by simp⟩
  | cons choice rest ih =>
    cases choice with
    | seed _ | journal | missingJournal => exact ih _ settings
    | computers added =>
      obtain ⟨seed, active, more, own, other⟩ := ih (config.apply (.computers added))
        (settings ++ added)
      refine ⟨seed, active, added ++ more, ?_, ?_⟩
      · rw [← List.append_assoc]
        exact own
      · rw [← List.append_assoc]
        exact other

/-- A request for a minimum size may stand anywhere among the choices. -/
theorem Config.enlarges_ofChoices {before after : List Choice}
    (others : ∀ setting ∈ (ofChoices (before ++ after)).settings, setting.isMinSize = false) :
    (ofChoices (before ++ after)).Enlarges size
      (ofChoices (before ++ .computers [.minSize size] :: after)) := by
  unfold ofChoices at others ⊢
  simp only [List.foldl_append, List.foldl_cons] at others ⊢
  generalize before.foldl apply {} = config at others ⊢
  obtain ⟨seed, active, more, own, other⟩ :=
    foldl_computers after config (config.settings ++ [.minSize size])
  refine ⟨seed.symm, active.symm, config.settings, more, own, ?_, others⟩
  rw [List.append_cons]
  exact other

theorem Config.Enlarges.computerSettings (enlarges : config.Enlarges size larger) (index : Nat) :
    Setting.Enlarges size (config.computerSettings index) (larger.computerSettings index) := by
  obtain ⟨before, after, split, splitToo, others⟩ := enlarges.settings
  refine ⟨[.journal config.active, .name ("amp" ++ countText index)] ++ before, after, ?_, ?_, ?_⟩
  · rw [Config.computerSettings, split, List.append_assoc]
  · rw [Config.computerSettings, splitToo, enlarges.active, List.append_assoc]
  · intro setting member
    rcases List.mem_append.mp member with own | given
    · simp only [List.mem_cons, List.not_mem_nil, or_false] at own
      rcases own with rfl | rfl <;> rfl
    · exact others setting given

/-- The rings of both choices report the same. -/
theorem Config.Enlarges.record (enlarges : config.Enlarges size larger) :
    larger.record = config.record := by
  funext event
  rw [Config.record, Config.record, enlarges.active]

/-! ## Starting amplifiers -/

def Slot.State.padded (zeros : Nat) : State → State
  | waiting computer => waiting (computer.padded zeros)
  | halted buffer => halted buffer

def Slot.padded (zeros : Nat) (slot : Slot) : Slot :=
  { slot with state := slot.state.padded zeros }

def Report.ofStart (index : Nat) (phase : Cell) (turn : Turn) : Report Slot where
  result :=
    match turn.status with
    | .error f => .error (f.within (.amplifierWithPhase index phase))
    | .ok .awaiting => .ok ⟨phase, .waiting turn.computer⟩
    | .ok (.halted _) =>
      .error ((Cause.preconditionViolated.within .haltedEarly).within
        (.amplifierWithPhase index phase))
  events := turn.events

private theorem start_of_built {program : Memory} {index : Nat} {computer : Computer}
    (built : Computer.build program (config.computerSettings index) = .ok computer)
    (budget : Nat) (phase : Cell) :
    start budget program config index phase =
      (computer.resume budget phase).map (.ofStart index phase) := by
  simp only [start, built]
  cases computer.resume budget phase with
  | none => rfl
  | some turn =>
    rcases status : turn.status with f | ⟨_⟩ | output <;>
      simp [bind, Option.bind, pure, Report.ofStart, status]

private theorem Report.ofStart_padded (index : Nat) (phase : Cell) (turn : Turn) (zeros : Nat) :
    ofStart index phase (turn.padded zeros) =
      (ofStart index phase turn).map (Slot.padded zeros) := by
  rcases status : turn.status with f | ⟨_⟩ | output <;>
    simp [ofStart, Turn.padded, map, status, Except.map, Slot.padded, Slot.State.padded]

section Start

variable {budget index : Nat} {program : Memory} {phase : Cell} {phases : List Cell}
  (valid : 0 ≤ size) (enlarges : config.Enlarges size larger)

include valid enlarges

/-- The zeros behind the cells of each amplifier when a minimum size is asked for in addition. -/
theorem start_of_enlarges
    (inside : ∀ report, start budget program config index phase = some report →
      InBounds report.result) :
    start budget program larger index phase =
      (start budget program config index phase).map
        (Report.map (Slot.padded (size.toNatClampNeg - program.size))) := by
  have builtLarger := Computer.build_of_enlarges valid (enlarges.computerSettings index) program
  generalize size.toNatClampNeg - program.size = zeros at builtLarger ⊢
  cases built : Computer.build program (config.computerSettings index) with
  | error f =>
    rw [built] at builtLarger
    simp only [Except.map] at builtLarger
    simp only [start, built, builtLarger]
    rfl
  | ok computer =>
    rw [built] at builtLarger
    have inBounds (turn : Turn) (taken : computer.resume budget phase = some turn) :
        InBounds turn.status := by
      intro f failed
      have result : (Report.ofStart index phase turn).result =
          .error (f.within (.amplifierWithPhase index phase)) := by
        simp only [Report.ofStart, failed]
      have known := inside _ (by rw [start_of_built built, taken]; rfl) _ result
      exact known
    have turns : (computer.padded zeros).resume budget phase = _ :=
      Computer.execute_padded inBounds zeros
    rw [start_of_built built, start_of_built builtLarger, turns, Option.map_map, Option.map_map]
    exact congrArg (Option.map · _) (funext fun turn => Report.ofStart_padded ..)

private theorem startAll_of_enlarges
    (inside : ∀ report, startAll budget program config index phases = some report →
      InBounds report.result) :
    startAll budget program larger index phases =
      (startAll budget program config index phases).map
        (Report.map (Vector.map (Slot.padded (size.toNatClampNeg - program.size)))) := by
  induction phases generalizing index with
  | nil => simp [startAll, Report.map, Except.map]
  | cons phase rest ih =>
    unfold startAll at inside ⊢
    have inBounds (first : Report Slot)
        (started : start budget program config index phase = some first) :
        InBounds first.result := by
      intro f failed
      refine inside ⟨.error f, first.events⟩ ?_ f rfl
      simp [started, failed]
    rw [start_of_enlarges valid enlarges inBounds]
    cases started : start budget program config index phase with
    | none => rfl
    | some first =>
      cases result : first.result with
      | error f => simp [Report.map, result, Except.map]
      | ok slot =>
        have others (report : Report (Vector Slot rest.length))
            (answer : startAll budget program config (index + 1) rest = some report) :
            InBounds report.result := by
          intro f failed
          refine inside ⟨.error f, first.events ++ report.events⟩ ?_ f rfl
          simp [started, result, answer, failed, Except.map]
        simp only [bind, Option.bind, Option.map_some, Report.map, result, Except.map, ih others]
        cases startAll budget program config (index + 1) rest with
        | none => rfl
        | some report =>
          cases slots : report.result <;> simp [pure, Report.map, Except.map, slots]

end Start

/-! ## Rounds -/

namespace Relay

variable {last : Nat}

/-- The relay with zeros behind the cells of every computer. -/
def padded (zeros : Nat) (r : Relay last) : Relay last :=
  { r with slots := r.slots.map (Slot.padded zeros) }

end Relay

def Round.padded {last : Nat} (zeros : Nat) : Round last → Round last
  | next r events => .next (r.padded zeros) events
  | done result events => .done result events

namespace Slot.State

variable (state : State) (zeros : Nat)

@[simp]
theorem buffer_padded : (state.padded zeros).buffer = state.buffer := by
  cases state <;> rfl

@[simp]
theorem isHalted_padded : (state.padded zeros).isHalted = state.isHalted := by
  cases state <;> rfl

@[simp]
theorem handedOver_padded : (state.padded zeros).handedOver = state.handedOver := by
  cases state <;> rfl

private theorem emptied_padded : (state.padded zeros).emptied = state.emptied.padded zeros := by
  cases state <;> rfl

theorem ofTurn_padded (turn : Turn) :
    ofTurn (turn.padded zeros) = (ofTurn turn).map (State.padded zeros) := by
  rcases status : turn.status with f | ⟨_⟩ | output <;>
    simp [ofTurn, Turn.padded, status, State.padded]

end Slot.State

namespace Relay

variable {last : Nat} (r : Relay last) (zeros : Nat)

@[simp]
theorem state_padded (k : Fin (last + 1)) :
    (r.padded zeros).state k = (r.state k).padded zeros := by
  simp [state, padded, Slot.padded]

@[simp]
theorem current_padded : (r.padded zeros).current = r.current :=
  rfl

@[simp]
theorem pending_padded : (r.padded zeros).pending = r.pending :=
  rfl

@[simp]
theorem idle_padded : (r.padded zeros).idle = r.idle :=
  rfl

private theorem place_padded : (r.padded zeros).place = r.place := by
  simp [place, slot, padded, Slot.padded]

private theorem result_padded : (r.padded zeros).result = r.result := by
  rw [result, place_padded]
  rfl

private theorem setState_padded (state : Slot.State) :
    (r.padded zeros).setState (state.padded zeros) = (r.setState state).padded zeros := by
  simp [setState, slot, padded, Slot.padded]

private theorem noteSignal_padded (output : List Cell) :
    (r.padded zeros).noteSignal output = (r.noteSignal output).padded zeros := by
  unfold noteSignal
  rw [apply_ite (padded zeros)]
  rfl

private theorem fed_padded (state : Slot.State) (rest : List Cell) :
    (r.padded zeros).fed (state.padded zeros) rest = (r.fed state rest).padded zeros := by
  rw [fed, setState_padded, noteSignal_padded, Slot.State.handedOver_padded]
  rfl

private theorem passed_padded : (r.padded zeros).passed = r.passed.padded zeros := by
  simp only [passed, state_padded, current_padded, Slot.State.emptied_padded, setState_padded,
    Slot.State.buffer_padded, noteSignal_padded]
  rfl

variable {r} {budget : Nat} {mode : Mode} {r' : Relay last} {events : List Event}
  {result : Except Failure Cell}

/-- The current amplifier with more memory takes the same turn, if it does not fail for an address
out of bounds. -/
theorem resume_padded {computer : Computer} {signal : Cell} {turn : Turn}
    (resumed : computer.resume budget signal = some turn) (inside : InBounds turn.status) :
    (computer.padded zeros).resume budget signal = some (turn.padded zeros) := by
  have only (other : Turn) (same : computer.execute budget (some signal) = some other) :
      InBounds other.status := by
    cases resumed.symm.trans same
    exact inside
  have turns := Computer.execute_padded only zeros
  exact turns.trans (congrArg (Option.map (Turn.padded zeros)) resumed)

private theorem waiting_padded {computer : Computer}
    (waiting : r.state r.current = .waiting computer) :
    (r.padded zeros).state (r.padded zeros).current = .waiting (computer.padded zeros) := by
  rw [state_padded, current_padded, waiting]
  rfl

variable (record : larger.record = config.record)

include record

private theorem drops_padded : (r.padded zeros).drops larger = r.drops config := by
  simp [drops, record]

theorem Moves.padded (moves : r.Moves budget mode config r' events) :
    (r.padded zeros).Moves budget mode larger (r'.padded zeros) events := by
  cases moves with
  | @feed computer signal rest turn state waiting pending resumed left =>
    have inside : InBounds turn.status := by
      intro f failed
      simp [Slot.State.ofTurn, failed] at left
    have leftToo : Slot.State.ofTurn (turn.padded zeros) = some (state.padded zeros) := by
      rw [Slot.State.ofTurn_padded, left, Option.map_some]
    have move : (r.padded zeros).Moves budget mode larger _ _ :=
      .feed (waiting_padded zeros waiting) pending (resume_padded zeros resumed inside) leftToo
    rw [fed_padded, Slot.State.isHalted_padded, Slot.State.buffer_padded, record] at move
    exact move
  | pass quiet inner lively =>
    rw [← passed_padded, ← drops_padded zeros record]
    exact .pass (by simpa using quiet) (by simpa using inner) (by simpa using lively)

theorem Ends.padded (ends : r.Ends budget mode config result events) (inside : InBounds result) :
    (r.padded zeros).Ends budget mode larger result events := by
  cases ends with
  | @failed computer signal rest turn f waiting pending resumed failed =>
    have inBounds : InBounds turn.status := by
      intro g same
      cases failed.symm.trans same
      exact (inside _ rfl :)
    have ends : (r.padded zeros).Ends budget mode larger _ _ :=
      .failed (waiting_padded zeros waiting) pending (resume_padded zeros resumed inBounds) failed
    rw [place_padded] at ends
    exact ends
  | stuck waiting pending chain =>
    rw [← place_padded r zeros]
    exact .stuck (waiting_padded zeros waiting) pending chain
  | complete halted outer =>
    rw [← result_padded r zeros, ← drops_padded zeros record]
    exact .complete (by simpa using halted) outer
  | stalled quiet inner empty idle =>
    rw [← drops_padded zeros record]
    exact .stalled (by simpa using quiet) (by simpa using inner) (by simpa using empty) idle

/-- A ring with more memory plays the same round, unless it is done because an amplifier is out of
bounds. -/
theorem round_padded
    (inside : ∀ result events, r.round budget mode config = some (.done result events) →
      InBounds result) :
    (r.padded zeros).round budget mode larger =
      (r.round budget mode config).map (Round.padded zeros) := by
  cases played : r.round budget mode config with
  | none =>
    obtain ⟨computer, signal, rest, waiting, pending, endless⟩ := round_eq_none_iff.mp played
    refine round_eq_none_iff.mpr ⟨_, signal, rest, waiting_padded zeros waiting, pending, ?_⟩
    have vacuous (turn : Turn) (same : computer.execute budget (some signal) = some turn) :
        InBounds turn.status := by
      cases endless.symm.trans same
    exact (Computer.execute_padded vacuous zeros).trans
      (congrArg (Option.map (Turn.padded zeros)) endless)
  | some round =>
    cases round with
    | next r' events => exact round_of_moves ((moves_of_round played).padded zeros record)
    | done result events =>
      have ends := ends_of_round played
      exact round_of_ends (ends.padded zeros record (inside result events played))

private theorem play_padded {rounds : Nat} {log : Array Event}
    (inside : ∀ report, r.play budget mode config rounds log = some report →
      InBounds report.result) :
    (r.padded zeros).play budget mode larger rounds log =
      r.play budget mode config rounds log := by
  induction rounds generalizing r log with
  | zero => rfl
  | succ rounds ih =>
    unfold play at inside ⊢
    have inBounds (result : Except Failure Cell) (events : List Event)
        (played : r.round budget mode config = some (.done result events)) : InBounds result :=
      inside ⟨result, (log ++ events).toList⟩ (by rw [played])
    rw [round_padded zeros record inBounds]
    cases played : r.round budget mode config with
    | none => rfl
    | some round =>
      cases round with
      | done result events => rfl
      | next r' events =>
        rw [played] at inside
        exact ih inside

end Relay

/-! ## Rings -/

/-- The ring with other choices and with zeros behind the cells of every computer. -/
def Ring.padded (zeros : Nat) (config : Config) (ring : Ring) : Ring :=
  { ring with slots := ring.slots.map (Slot.padded zeros), config }

section Ring

variable {budget : Nat} {program : Memory} {mode : Mode} {phases : List Cell}
  (valid : 0 ≤ size) (enlarges : config.Enlarges size larger)

include enlarges

private theorem Ring.run_of_enlarges {ring : Ring} (own : ring.config = config)
    (fresh : ring.spent = false) (zeros : Nat)
    (inside : ∀ ran, ring.run budget = some ran → InBounds ran.1.result) :
    (ring.padded zeros larger).run budget =
      (ring.run budget).map fun ran => (ran.1, ran.2.padded zeros larger) := by
  have inBounds (report : Report Cell)
      (played : ring.opening.play budget ring.mode ring.config budget #[] = some report) :
      InBounds report.result :=
    inside _ (by rw [Ring.run_of_fresh fresh, played]; rfl)
  have opening : (ring.padded zeros larger).opening = ring.opening.padded zeros := by
    simp only [Ring.opening, Ring.padded, enlarges.seed, own]
    rfl
  rw [Ring.run_of_fresh fresh, Ring.run_of_fresh (by exact fresh), opening]
  have played := Relay.play_padded zeros (own ▸ enlarges.record) inBounds
  rw [Option.map_map, ← played]
  rfl

include valid

theorem Ring.build_of_enlarges
    (inside : ∀ report, Ring.build budget program phases mode config = some report →
      InBounds report.result) :
    Ring.build budget program phases mode larger =
      (Ring.build budget program phases mode config).map
        (Report.map (Ring.padded (size.toNatClampNeg - program.size) larger)) := by
  cases phases with
  | nil => rfl
  | cons phase rest =>
    have inBounds (report : Report (Vector Slot (phase :: rest).length))
        (answer : startAll budget program config 0 (phase :: rest) = some report) :
        InBounds report.result := by
      intro f failed
      refine inside ⟨.error f, report.events⟩ ?_ f rfl
      simp [Ring.build, answer, failed, Except.map]
    simp only [Ring.build, bind, startAll_of_enlarges valid enlarges inBounds]
    cases startAll budget program config 0 (phase :: rest) with
    | none => rfl
    | some report =>
      cases slots : report.result <;> simp [pure, Report.map, Except.map, slots, Ring.padded]

/-- A ring for which a minimum size was asked in addition is built and run to the same result, and
reports the same, unless the ring as it is fails for an address out of bounds. -/
theorem relay_of_enlarges
    (inside : ∀ report, relay budget program phases mode config = some report →
      InBounds report.result) :
    relay budget program phases mode larger = relay budget program phases mode config := by
  unfold relay at inside ⊢
  have inBounds (report : Report Ring)
      (built : Ring.build budget program phases mode config = some report) :
      InBounds report.result := by
    intro f failed
    refine inside ⟨.error f, report.events⟩ ?_ f rfl
    simp [built, failed]
  rw [Ring.build_of_enlarges valid enlarges inBounds]
  cases built : Ring.build budget program phases mode config with
  | none => rfl
  | some report =>
    obtain ⟨result, events⟩ := report
    cases result with
    | error f => rfl
    | ok ring =>
      obtain ⟨-, own, fresh, -⟩ := Ring.started_of_build built
      have ran (answer : Report Cell × Ring) (ran : ring.run budget = some answer) :
          InBounds answer.1.result := by
        intro f failed
        refine inside ⟨.error f, events ++ answer.1.events⟩ ?_ f rfl
        simp [built, ran, failed]
      simp only [bind, Option.bind, Option.map_some, Report.map, Except.map,
        Ring.run_of_enlarges enlarges own fresh _ ran]
      cases ring.run budget with
      | none => rfl
      | some answer => rfl

/-! ## Searches -/

theorem Search.forIn_of_enlarges {orderings : List (List Cell)} {s : Search}
    (inside : ∀ t f, forIn orderings s (visit budget program mode config) = some t →
      t.failure = some f → f.cause ≠ .addressOutOfBounds) :
    forIn orderings s (visit budget program mode larger) =
      forIn orderings s (visit budget program mode config) := by
  induction orderings generalizing s with
  | nil => rfl
  | cons ordering rest ih =>
    rw [List.forIn_cons] at inside
    have inBounds (report : Report Cell)
        (relayed : relay budget program ordering mode config = some report) :
        InBounds report.result := by
      intro f failed
      -- A ring that fails ends the search.
      have visiting : visit budget program mode config ordering s = some (.done { s with
          runs := s.runs + 1
          log := s.log ++ report.events
          failure := some (f.within (.phases ordering)) }) := by
        rw [visit, relayed, Option.map_some, tally, failed]
      rw [visiting] at inside
      have known := inside _ _ rfl rfl
      exact known
    have visiting : visit budget program mode larger ordering s =
        visit budget program mode config ordering s := by
      unfold visit tally
      rw [relay_of_enlarges valid enlarges inBounds, enlarges.record]
    rw [List.forIn_cons, List.forIn_cons, visiting]
    cases visited : visit budget program mode config ordering s with
    | none => rfl
    | some step =>
      rw [visited] at inside
      cases step with
      | done t => rfl
      | yield t => exact ih inside

/-- The search with a minimum size asked for in addition finds the same and reports the same, unless
the search as it is fails for an address out of bounds. -/
theorem maxSignal_of_enlarges
    (inside : ∀ report, maxSignal budget program phases mode config = some report →
      InBounds report.result) :
    maxSignal budget program phases mode larger = maxSignal budget program phases mode config := by
  unfold maxSignal at inside ⊢
  have searched : Search.all budget program phases mode larger =
      Search.all budget program phases mode config := by
    rw [Search.all_eq_forIn, Search.all_eq_forIn]
    refine Search.forIn_of_enlarges valid enlarges fun t f found failed => ?_
    rw [← Search.all_eq_forIn] at found
    refine inside ⟨.error f, t.log.toList⟩ ?_ f rfl
    simp [found, failed]
  rw [searched, enlarges.record]

end Ring

end Amplifier

/-- The memory in which a program runs may be made larger without changing what the program does. As
long as a machine does not fail for an address out of bounds, the machine with zeros behind its
cells answers every call in the same way and stands in the same place afterwards, with the zeros
still behind its cells, and a call that does not return on the one does not return on the other. A
minimum size that is asked for in addition therefore changes no result other than such a failure: a
patched run ends in the same memory with zeros behind it, and a ring and a search for the greatest
signal come to the same result. -/
theorem growth_unnoticed (program : Memory) :
    (∀ zeros budget calls responses,
      (Machine.load program).calls budget calls = some responses →
      (∀ response ∈ responses, response.reply.InBounds) →
      (Machine.load (program.padded zeros)).calls budget calls =
        some (responses.map (Response.padded zeros)) ∧
      ∀ call, (Machine.load program).calls budget (calls ++ [call]) = none →
        (Machine.load (program.padded zeros)).calls budget (calls ++ [call]) = none) ∧
    ∀ size : Cell, 0 ≤ size →
      (∀ settings larger, Setting.Enlarges size settings larger → ∀ budget patches,
        (∀ run, runPatched budget program patches settings = some run → InBounds run.result) →
        runPatched budget program patches larger =
          (runPatched budget program patches settings).map
            (PatchedRun.padded (size.toNatClampNeg - program.size))) ∧
      (∀ before after : List Amplifier.Choice,
        (∀ setting ∈ (Amplifier.Config.ofChoices (before ++ after)).settings,
          setting.isMinSize = false) →
        (Amplifier.Config.ofChoices (before ++ after)).Enlarges size
          (.ofChoices (before ++ .computers [.minSize size] :: after))) ∧
      ∀ config larger : Amplifier.Config, config.Enlarges size larger → ∀ budget phases mode,
        ((∀ report, Amplifier.relay budget program phases mode config = some report →
            InBounds report.result) →
          Amplifier.relay budget program phases mode larger =
            Amplifier.relay budget program phases mode config) ∧
        ((∀ report, Amplifier.maxSignal budget program phases mode config = some report →
            InBounds report.result) →
          Amplifier.maxSignal budget program phases mode larger =
            Amplifier.maxSignal budget program phases mode config) := by
  refine ⟨?_, fun size valid => ⟨?_, ?_, ?_⟩⟩
  · intro zeros budget calls responses answered inside
    refine ⟨Machine.calls_padded answered inside zeros, fun call stuck => ?_⟩
    exact Machine.calls_padded_eq_none answered inside stuck zeros
  · intro settings larger enlarges budget patches inside
    exact runPatched_of_enlarges valid enlarges inside
  · intro before after others
    exact Amplifier.Config.enlarges_ofChoices others
  · intro config larger enlarges budget phases mode
    refine ⟨fun inside => ?_, fun inside => ?_⟩
    · exact Amplifier.relay_of_enlarges valid enlarges inside
    · exact Amplifier.maxSignal_of_enlarges valid enlarges inside

theorem growth_unnoticed_echoTwice_weigher :
    (∃ responses, (Machine.load echoTwice).calls 9 [.resume 7, .takeOutput, .resume 8] =
        some responses ∧
      (∀ response ∈ responses, response.reply.InBounds) ∧
        (Machine.load (echoTwice.padded 3)).calls 9 [.resume 7, .takeOutput, .resume 8] =
          some (responses.map (Response.padded 3))) ∧
    (∃ run memory, runPatched 9 (.ofList [99, 0]) [⟨1, 5⟩] [] = some run ∧
      run.result = .ok memory ∧ ∃ larger, runPatched 9 (.ofList [99, 0]) [⟨1, 5⟩] [.minSize 4] =
        some larger ∧ larger.result = .ok (memory.padded 2)) ∧
    ∃ report best, Amplifier.relay 20 Amplifier.weigher [1, 2] .chain {} = some report ∧
      report.result = .ok 4 ∧
      Amplifier.relay 20 Amplifier.weigher [1, 2] .chain { settings := [.minSize 40] } =
        some report ∧
      Amplifier.maxSignal 20 Amplifier.weigher [1, 2] .chain {} = some best ∧
      best.result = .ok ⟨5, [2, 1]⟩ ∧
      Amplifier.maxSignal 20 Amplifier.weigher [1, 2] .chain { settings := [.minSize 40] } =
        some best := by
  refine ⟨?_, ?_, ?_⟩
  · obtain ⟨responses, answered, inside⟩ : ∃ responses,
        (Machine.load echoTwice).calls 9 [.resume 7, .takeOutput, .resume 8] = some responses ∧
          ∀ response ∈ responses, response.reply.InBounds := by
      refine ⟨_, rfl, ?_⟩
      simp only [List.forall_mem_cons]
      exact ⟨nofun, trivial, nofun, nofun⟩
    have padded := ((growth_unnoticed echoTwice).1 3 9 _ responses answered inside).1
    exact ⟨responses, answered, inside, padded⟩
  · obtain ⟨run, memory, ran, result⟩ : ∃ run memory,
        runPatched 9 (.ofList [99, 0]) [⟨1, 5⟩] [] = some run ∧ run.result = .ok memory :=
      ⟨_, _, rfl, rfl⟩
    have enlarges : Setting.Enlarges 4 [] [.minSize 4] := ⟨[], [], rfl, rfl, nofun⟩
    have grown := ((growth_unnoticed (.ofList [99, 0])).2 4 (by decide)).1 [] _ enlarges 9 [⟨1, 5⟩]
      fun other same => by
        cases ran.symm.trans same
        rw [result]
        exact .ok memory
    refine ⟨run, memory, ran, result, run.padded 2, ?_, ?_⟩
    · rw [grown, ran]
      rfl
    · rw [PatchedRun.padded, result]
      rfl
  · obtain ⟨report, best, relayed, signal, searched, found⟩ : ∃ report best,
        Amplifier.relay 20 Amplifier.weigher [1, 2] .chain {} = some report ∧
          report.result = .ok 4 ∧
            Amplifier.maxSignal 20 Amplifier.weigher [1, 2] .chain {} = some best ∧
              best.result = .ok ⟨5, [2, 1]⟩ :=
      ⟨_, _, rfl, rfl, rfl, rfl⟩
    have enlarges : Amplifier.Config.Enlarges 40 {} { settings := [.minSize 40] } :=
      ⟨rfl, rfl, [], [], rfl, rfl, by rintro _ ⟨⟩⟩
    obtain ⟨relays, searches⟩ :=
      ((growth_unnoticed Amplifier.weigher).2 40 (by decide)).2.2 {} _ enlarges 20 [1, 2] .chain
    refine ⟨report, best, relayed, signal, ?_, searched, found, ?_⟩
    · rw [← relayed]
      refine relays fun other same => ?_
      cases relayed.symm.trans same
      rw [signal]
      exact .ok 4
    · rw [← searched]
      refine searches fun other same => ?_
      cases searched.symm.trans same
      rw [found]
      exact .ok _

end CellMachine
