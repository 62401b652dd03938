import CellMachine.Console.Session
import CellMachine.Proofs.Amplifier.Search
import CellMachine.Proofs.Amplifier.Stall
import CellMachine.Proofs.Patch

/-! # No machine is set going after it has halted

A machine that has halted refuses to be set going again. Running a program, patched or not, building
and running rings, searching through them and holding a session all set machines going, and none of
them ever does so after the machine has halted: no result is such a refusal. Along the way nothing
is looked up that is not there.
-/

namespace CellMachine

/-- The result does not come from a machine that was set going after it had halted. -/
abbrev HaltRespected {α : Type} (result : Except Failure α) : Prop :=
  Avoids .alreadyHalted result

private theorem Cause.OfInstruction.ne_alreadyHalted {cause : Cause} (known : cause.OfInstruction) :
    cause ≠ .alreadyHalted :=
  known.ne (by simp [OfInstruction])

/-! ## Programs -/

theorem exec_respects {budget : Nat} {program : Memory} {inputs : List Cell}
    {result : Except Failure (List Cell)} (answer : exec budget program inputs = some result) :
    HaltRespected result := by
  obtain ⟨o, rests, rfl⟩ := (exec_eq_some_iff program inputs result).mp ⟨budget, answer⟩
  cases ending : o.ending with
  | halted =>
    simp only [Interpreter.Outcome.result, ending]
    exact .ok _
  | starved =>
    simp only [Interpreter.Outcome.result, ending]
    exact .error (by rintro ⟨⟩)
  | failed f =>
    simp only [Interpreter.Outcome.result, ending]
    exact .error (rests.cause_of_failed ending).ne_alreadyHalted

/-! ## Computers -/

theorem Setup.ofSettings_respects (settings : List Setting) :
    HaltRespected (ofSettings settings) := by
  intro f failed
  obtain ⟨setting, -, refused⟩ := refused_of_ofSettings failed
  obtain ⟨size, cause⟩ | cause := Setting.cause_of_refusal? refused <;> rw [cause] <;> nofun

namespace Computer

private theorem build_respects (program : Memory) (settings : List Setting) :
    HaltRespected (build program settings) :=
  (Setup.ofSettings_respects settings).map _

/-- A computer that has not halted is not refused its turn, and when it waits it has not halted. -/
theorem execute_respects {c : Computer} {budget : Nat} {input : Option Cell} {turn : Turn}
    (alive : c.machine.halted = false) (executed : c.execute budget input = some turn) :
    HaltRespected turn.status ∧
      (turn.status = .ok .awaiting → turn.computer.machine.halted = false) := by
  obtain ⟨stop, stopped, rfl⟩ := Option.map_eq_some_iff.mp executed
  refine ⟨fun f failed => ?_, fun awaiting => Bool.eq_false_iff.mpr fun halted => ?_⟩
  · exact (Machine.cause_of_execute alive stopped failed).ne_alreadyHalted
  · obtain before | ⟨output, halts⟩ := (Machine.lawful_of_execute stopped).flag.mp halted
    · cases alive.symm.trans before
    · cases awaiting.symm.trans (Reply.stopped.inj halts)

end Computer

/-! ## Patched runs -/

section Patched

variable {budget : Nat} {program : Memory} {patches : List Patch} {settings : List Setting}
  {run : PatchedRun}

private theorem runPatched_respects
    (answer : runPatched budget program patches settings = some run) :
    HaltRespected run.result := by
  obtain ⟨f, refused, rfl⟩ | ⟨computer, f, -, unpatched, rfl⟩ |
    ⟨computer, memory, turn, -, -, ran, rfl⟩ := runPatched_cases answer
  · exact .error (Computer.build_respects program settings f refused)
  · exact .error (by simp [Patch.applyAll_cause unpatched])
  · have respected := (Computer.execute_respects (by rfl) ran).1
    rcases status : turn.status with f | ⟨_⟩ | output
    all_goals simp only [PatchedRun.ofTurn, status]
    · exact .error (respected f status)
    · exact .error (by rintro ⟨⟩)
    · exact .ok _

private theorem patchedResult_respects {noun verb : Cell}
    {answer : Except Failure Cell × List Event}
    (given : patchedResult budget program noun verb settings = some answer) :
    HaltRespected answer.1 := by
  obtain ⟨run, ran, given⟩ := Option.bind_eq_some_iff.mp given
  cases given
  exact (runPatched_respects ran).map _

private theorem findNounVerb_respects {target : Cell} {result : Except Failure (Cell × Cell)}
    (answer : findNounVerb budget program target settings = some result) :
    HaltRespected result := by
  unfold findNounVerb at answer
  cases setup : Setup.ofSettings settings with
  | error f =>
    simp only [setup] at answer
    cases answer
    exact .error (Setup.ofSettings_respects settings f setup)
  | ok s =>
    simp only [setup] at answer
    obtain ⟨found, -, answer⟩ := Option.bind_eq_some_iff.mp answer
    cases found <;> cases answer
    · exact .error nofun
    · exact .ok _

end Patched

/-! ## Rings -/

namespace Amplifier

variable {budget : Nat} {program : Memory} {phases : List Cell} {mode : Mode} {config : Config}

private theorem start_respects {index : Nat} {phase : Cell} {report : Report Slot}
    (answer : start budget program config index phase = some report) :
    HaltRespected report.result := by
  unfold start at answer
  cases built : Computer.build program (config.computerSettings index) with
  | error f =>
    simp only [built] at answer
    cases answer
    exact .error (Computer.build_respects _ _ f built)
  | ok computer =>
    simp only [built] at answer
    obtain ⟨turn, resumed, answer⟩ := Option.bind_eq_some_iff.mp answer
    have fresh := Computer.machine_of_build built
    have respected := (Computer.execute_respects (by rw [fresh]; rfl) resumed).1
    split at answer <;> cases answer
    · next f failed => exact .error (respected f failed)
    · exact .ok _
    · exact .error nofun

private theorem startAll_respects {index : Nat} {report : Report (Vector Slot phases.length)}
    (answer : startAll budget program config index phases = some report) :
    HaltRespected report.result := by
  induction phases generalizing index with
  | nil =>
    cases answer
    exact .ok _
  | cons phase rest ih =>
    obtain ⟨first, started, answer⟩ := Option.bind_eq_some_iff.mp answer
    split at answer
    · next f failed =>
      cases answer
      exact .error (start_respects started f failed)
    · obtain ⟨others, further, answer⟩ := Option.bind_eq_some_iff.mp answer
      cases answer
      exact (ih further).map _

private theorem Ring.build_respects {report : Report Ring}
    (answer : Ring.build budget program phases mode config = some report) :
    HaltRespected report.result := by
  unfold build at answer
  split at answer
  · cases answer
    exact .error nofun
  · obtain ⟨started, begun, answer⟩ := Option.bind_eq_some_iff.mp answer
    cases answer
    exact (startAll_respects begun).map _

private theorem Ring.run_respects {started : Nat} {ring spent : Ring} {events : List Event}
    {report : Report Cell}
    (built : Ring.build started program phases mode config = some ⟨.ok ring, events⟩)
    (ran : ring.run budget = some (report, spent)) : HaltRespected report.result := by
  intro f failed
  obtain known | silent | ⟨stuck, -⟩ | ⟨stalled, -⟩ := cause_of_run built ran failed
  · exact known.ne_alreadyHalted
  · simp [silent]
  · simp [stuck]
  · simp [stalled]

private theorem Ring.spent_of_run {ring spent : Ring} {report : Report Cell}
    (ran : ring.run budget = some (report, spent)) : spent.spent = true := by
  unfold run at ran
  split at ran
  · next before =>
    cases ran
    exact before
  · obtain ⟨_, -, ran⟩ := Option.bind_eq_some_iff.mp ran
    cases ran
    rfl

/-- A ring that has been run before sets nothing going. -/
theorem Ring.rerun_respects {ring spent : Ring} {report : Report Cell} (before : ring.spent = true)
    (ran : ring.run budget = some (report, spent)) : HaltRespected report.result := by
  rw [run, if_pos before] at ran
  cases ran
  exact .error (by rintro ⟨⟩)

/-- What the rounds of a ring rely on whenever one begins. -/
structure Relay.Orderly {last : Nat} (budget : Nat) (mode : Mode) (config : Config)
    (phases : List Cell) (r : Relay last) : Prop where
  /-- The turn is with one of the amplifiers. -/
  placed : r.current.val < phases.length
  /-- An amplifier that can be fed has not halted and waits for input. -/
  suspended : ∀ k computer, r.state k = .waiting computer →
    computer.machine.halted = false ∧ computer.machine.Faces .input
  /-- Only a signal that is pending is fed. -/
  fed : ∀ r' reported, r.round budget mode config = some (.next r' reported) →
    r.Feeds ∨ r' = r.passed
  /-- Only the last value of an output with values in it becomes the signal. -/
  noted : ∀ r' reported, r.round budget mode config = some (.next r' reported) →
    r'.signal = r.signal ∨ ∃ output, output ≠ [] ∧ r'.signal = output.getLast? ∧
      (output = r'.buffer r.current ∨ output = r.buffer r.current)

private theorem Relay.signal_of_moves {last : Nat} {r r' : Relay last} {reported : List Event}
    (moves : r.Moves budget mode config r' reported) :
    r'.signal = r.signal ∨ ∃ output, output ≠ [] ∧ r'.signal = output.getLast? ∧
      (output = r'.buffer r.current ∨ output = r.buffer r.current) := by
  -- An output without values leaves the signal as it is.
  have noted (output : List Cell) : output.getLast?.or r.signal = r.signal ∨
      output ≠ [] ∧ output.getLast?.or r.signal = output.getLast? := by
    rcases output.eq_nil_or_concat with rfl | ⟨before, value, rfl⟩
    · exact .inl rfl
    · exact .inr (by simp)
  cases moves with
  | @feed computer signal rest turn state waiting pending resumed left =>
    rw [signal_fed]
    split
    · cases state with
      | waiting computer => exact .inl rfl
      | halted output =>
        obtain same | ⟨some, last⟩ := noted output
        · exact .inl same
        · exact .inr ⟨output, some, last, .inl (by simp [Relay.buffer, Slot.State.buffer])⟩
    · exact .inl rfl
  | pass =>
    rw [signal_passed]
    split
    · obtain same | ⟨some, last⟩ := noted (r.state r.current).buffer
      · exact .inl same
      · exact .inr ⟨_, some, last, .inr rfl⟩
    · exact .inl rfl

private theorem Ring.Reaches.orderly {started : Nat} {ring : Ring} {events log : List Event}
    {r : Relay ring.last} {l : Ledger ring.last}
    (built : Ring.build started program phases mode config = some ⟨.ok ring, events⟩)
    (reached : ring.Reaches budget r l log) : r.Orderly budget mode config phases := by
  obtain ⟨-, -, -, length, -⟩ := started_of_build built
  have placed : r.current.val < phases.length := by
    rw [length]
    exact r.current.isLt
  refine ⟨placed, fun k computer => (reached.balanced built).faces_input, ?_, ?_⟩
  · intro r' reported played
    cases Relay.moves_of_round played with
    | feed waiting pending => exact .inl (Relay.feeds_iff.mpr ⟨_, _, _, waiting, pending⟩)
    | pass => exact .inr rfl
  · intro r' reported played
    exact Relay.signal_of_moves (Relay.moves_of_round played)

private theorem relay_respects {report : Report Cell}
    (answer : relay budget program phases mode config = some report) :
    HaltRespected report.result := by
  obtain ⟨⟨result, events⟩, built, answer⟩ := Option.bind_eq_some_iff.mp answer
  cases result with
  | error f =>
    cases answer
    exact .error (Ring.build_respects built f rfl)
  | ok ring =>
    obtain ⟨⟨report, spent⟩, ran, answer⟩ := Option.bind_eq_some_iff.mp answer
    cases answer
    exact (Ring.run_respects built ran :)

private theorem maxSignal_respects {report : Report Best}
    (answer : maxSignal budget program phases mode config = some report) :
    HaltRespected report.result := by
  obtain ⟨best, found, -⟩ | ⟨-, ordering, -, f, -, failed, -, -, relays, -⟩ :=
    maxSignal_cases answer
  · rw [found]
    exact .ok best
  · obtain ⟨budget, ring, relayed, result⟩ := relays
    rw [failed]
    exact .error (relay_respects relayed f result)

end Amplifier

/-! ## Sessions -/

namespace Console

variable {σ : Type} {budget : Nat} {prompt : Option (Prompt σ)}

/-- A value is refused for want of input or by whoever is asked for it. -/
theorem Session.nextValue_cases {s next : Session σ} {m : Machine} {f : Failure}
    (refused : s.nextValue prompt m = (.error f, next)) :
    f.cause = .inputExhausted ∨
      ∃ ask asked g, prompt = some ask ∧ (ask asked).1 = .error g ∧ f.cause = g.cause := by
  unfold nextValue at refused
  split at refused
  · cases refused
  · split at refused
    · cases refused
      exact .inl rfl
    · next ask =>
      split at refused
      · cases refused
      · next g asked answered =>
        cases refused
        exact .inr ⟨ask, s.asked, g, rfl, by rw [answered], rfl⟩

/-- A session is not ended by a machine that has halted, unless whoever is asked says so. -/
theorem Session.goOn_respects {turns : Nat} {s : Session σ} {turn : Turn} {ended : Ended σ}
    {f : Failure} (respected : HaltRespected turn.status)
    (alive : turn.status = .ok .awaiting → turn.computer.machine.halted = false)
    (answer : goOn budget prompt turns s turn = some ended) (failed : ended.failure = some f)
    (refused : f.cause = .alreadyHalted) :
    ∃ ask asked g, prompt = some ask ∧ (ask asked).1 = .error g ∧ g.cause = .alreadyHalted := by
  induction turns generalizing s turn with
  | zero => cases answer
  | succ turns ih =>
    unfold goOn at answer
    split at answer
    · next g status =>
      cases answer
      cases failed
      exact (respected _ status refused).elim
    · cases answer
      cases failed
    · next awaiting =>
      dsimp only [Computer.takeOutput, Machine.takeOutput] at answer
      split at answer
      · next g next unanswered =>
        cases answer
        cases failed
        obtain exhausted | ⟨ask, asked, h, own, answered, same⟩ := nextValue_cases unanswered
        · cases refused.symm.trans exhausted
        · exact ⟨ask, asked, h, own, answered, same.symm.trans refused⟩
      · split at answer
        · cases answer
        · next resumed =>
          obtain ⟨respected, alive⟩ := Computer.execute_respects (by exact alive awaiting) resumed
          exact ih respected alive answer

private theorem converse_respects {program : Memory} {settings : List Setting} {computer : Computer}
    {inputs : List Cell} {asked : σ} {ended : Ended σ} {f : Failure}
    (built : Computer.build program settings = .ok computer)
    (answer : converse budget computer inputs prompt asked = some ended)
    (failed : ended.failure = some f) (refused : f.cause = .alreadyHalted) :
    ∃ ask asked g, prompt = some ask ∧ (ask asked).1 = .error g ∧ g.cause = .alreadyHalted := by
  obtain ⟨turn, ran, answer⟩ := Option.bind_eq_some_iff.mp answer
  have fresh := Computer.machine_of_build built
  obtain ⟨respected, alive⟩ := Computer.execute_respects (by rw [fresh]; rfl) ran
  exact Session.goOn_respects respected alive answer failed refused

end Console

/-- Machines live as they should, and nobody sets one going that has halted. After each call on a
machine that has been built, the machine stands at an instruction that reads input if the call left
it waiting, and at one that halts with its output handed over if the call brought it to a halt; it
counts as halted from then on and not before, and its memory keeps its size. Only a machine that has
halted refuses to be set going, and no program, patched run, ring, search or session on a computer
that has been built ever comes to such a refusal. What they look up is there: the first cell of a
memory that was patched, the current amplifier, the signal to be fed and the last value put out. -/
theorem life_cycle_respected (program : Memory) :
    (∀ settings computer budget calls before response after,
      Computer.build program settings = .ok computer →
      computer.machine.calls budget calls = some (before ++ response :: after) →
      (response.reply = .stopped (.ok .awaiting) → response.machine.Faces .input) ∧
      (response.reply.Halts → response.machine.Faces .halt ∧ response.machine.output = #[] ∧
        response.machine.halted = true) ∧
      (response.machine.halted = true ↔
        ∃ earlier ∈ before ++ [response], earlier.reply.Halts) ∧
      response.machine.memory.size = computer.machine.memory.size) ∧
    (∀ m budget input, (∃ stop f, Machine.execute budget m input = some stop ∧
      stop.status = .error f ∧ f.cause = .alreadyHalted) ↔ m.halted = true) ∧
    (∀ budget inputs result, exec budget program inputs = some result → HaltRespected result) ∧
    (∀ budget patches settings run, runPatched budget program patches settings = some run →
      HaltRespected run.result) ∧
    (∀ budget target settings result, findNounVerb budget program target settings = some result →
      HaltRespected result) ∧
    (∀ budget noun verb settings,
      (∀ answer, patchedResult budget program noun verb settings = some answer →
        HaltRespected answer.1) ∧
      ∀ run memory, runPatched budget program (Patch.nounVerb noun verb) settings = some run →
        run.result = .ok memory → 0 < memory.cells.size) ∧
    (∀ started phases mode config built,
      Amplifier.Ring.build started program phases mode config = some built →
      HaltRespected built.result ∧ ∀ ring, built.result = .ok ring →
        (∀ budget report spent, ring.run budget = some (report, spent) →
          HaltRespected report.result ∧ ∀ budget report spent',
            spent.run budget = some (report, spent') → HaltRespected report.result) ∧
        ∀ budget r l log, ring.Reaches budget r l log → r.Orderly budget mode config phases) ∧
    (∀ budget phases mode config report,
      Amplifier.maxSignal budget program phases mode config = some report →
        HaltRespected report.result) ∧
    ∀ (σ : Type) settings computer budget inputs (prompt : Option (Console.Prompt σ)) asked ended f,
      Computer.build program settings = .ok computer →
      Console.converse budget computer inputs prompt asked = some ended →
      ended.failure = some f → f.cause = .alreadyHalted →
        ∃ ask asked g, prompt = some ask ∧ (ask asked).1 = .error g ∧
          g.cause = .alreadyHalted := by
  refine ⟨?_, fun m budget input => Machine.refuses_iff, fun _ _ _ => exec_respects,
    fun _ _ _ _ => runPatched_respects, fun _ _ _ _ => findNounVerb_respects, ?_, ?_,
    fun _ _ _ _ _ => Amplifier.maxSignal_respects,
    fun _ _ _ _ _ _ _ _ _ => Console.converse_respects⟩
  · intro settings computer budget calls before response after built answered
    have fresh : computer.machine.halted = false := by
      rw [Computer.machine_of_build built]
      rfl
    obtain ⟨waiting, halting, flag, size⟩ := Machine.lawful_of_calls answered
    simp only [fresh, Bool.false_eq_true, false_or] at flag
    refine ⟨waiting, fun halts => ?_, flag, size⟩
    obtain ⟨faces, output⟩ := halting halts
    exact ⟨faces, output, flag.mpr ⟨response, by simp, halts⟩⟩
  · intro budget noun verb settings
    refine ⟨fun _ => patchedResult_respects, fun run memory ran halted => ?_⟩
    have contains : memory.Contains 1 :=
      runPatched_contains ran halted ⟨1, noun⟩ List.mem_cons_self
    exact Nat.zero_lt_of_lt contains.2
  · intro started phases mode config built answer
    refine ⟨Amplifier.Ring.build_respects answer, fun ring success => ?_⟩
    obtain ⟨result, events⟩ := built
    obtain rfl : result = .ok ring := success
    refine ⟨fun budget report spent ran => ?_, fun _ r l log reached => reached.orderly answer⟩
    refine ⟨Amplifier.Ring.run_respects answer ran, fun _ _ _ again => ?_⟩
    exact Amplifier.Ring.rerun_respects (Amplifier.Ring.spent_of_run ran) again

theorem life_cycle_respected_echoTwice_doubler :
    (∃ computer first second third, Computer.build echoTwice [] = .ok computer ∧
      computer.machine.calls 9 [.run, .resume 7, .resume 8] = some [first, second, third] ∧
        second.reply = .stopped (.ok .awaiting) ∧ second.machine.Faces .input ∧
          third.reply = .stopped (.ok (.halted [7, 8])) ∧ third.machine.Faces .halt ∧
            third.machine.output = #[] ∧ third.machine.halted = true) ∧
    (∃ run memory, runPatched 9 (.ofList [1, 0, 0, 0, 99]) (Patch.nounVerb 1 2) [] = some run ∧
      run.result = .ok memory ∧ 0 < memory.cells.size) ∧
    (∃ ring events report spent,
      Amplifier.Ring.build 9 Amplifier.doubler [1, 2] .chain { seed := 5 } =
          some ⟨.ok ring, events⟩ ∧
        ring.run 9 = some (report, spent) ∧ HaltRespected report.result) ∧
    ∃ computer ended f, Computer.build echoTwice [] = .ok computer ∧
      Console.converse 9 computer [7] (none : Option (Console.Prompt Unit)) () = some ended ∧
        ended.failure = some f ∧ f.cause ≠ .alreadyHalted := by
  refine ⟨?_, ?_, ?_, ?_⟩
  · obtain ⟨computer, first, second, third, built, answered, waits, halts⟩ :
        ∃ computer first second third, Computer.build echoTwice [] = .ok computer ∧
          computer.machine.calls 9 [.run, .resume 7, .resume 8] = some [first, second, third] ∧
            second.reply = .stopped (.ok .awaiting) ∧
              third.reply = .stopped (.ok (.halted [7, 8])) :=
      ⟨_, _, _, _, rfl, rfl, rfl, rfl⟩
    obtain ⟨reading, -⟩ :=
      (life_cycle_respected echoTwice).1 [] computer 9 _ [first] second [third] built answered
    obtain ⟨-, halting, -⟩ :=
      (life_cycle_respected echoTwice).1 [] computer 9 _ [first, second] third [] built answered
    exact ⟨computer, first, second, third, built, answered, waits, reading waits, halts,
      halting ⟨_, halts⟩⟩
  · obtain ⟨run, memory, ran, halted⟩ : ∃ run memory,
        runPatched 9 (.ofList [1, 0, 0, 0, 99]) (Patch.nounVerb 1 2) [] = some run ∧
          run.result = .ok memory :=
      ⟨_, _, rfl, rfl⟩
    obtain ⟨-, -, -, -, -, patched, -⟩ := life_cycle_respected (.ofList [1, 0, 0, 0, 99])
    exact ⟨run, memory, ran, halted, (patched 9 1 2 []).2 run memory ran halted⟩
  · obtain ⟨ring, events, report, spent, built, ran⟩ : ∃ ring events report spent,
        Amplifier.Ring.build 9 Amplifier.doubler [1, 2] .chain { seed := 5 } =
            some ⟨.ok ring, events⟩ ∧ ring.run 9 = some (report, spent) :=
      ⟨_, _, _, _, rfl, rfl⟩
    obtain ⟨-, -, -, -, -, -, rings, -⟩ := life_cycle_respected Amplifier.doubler
    obtain ⟨runs, -⟩ := (rings 9 [1, 2] .chain { seed := 5 } _ built).2 ring rfl
    exact ⟨ring, events, report, spent, built, ran, (runs 9 report spent ran).1⟩
  · obtain ⟨computer, ended, f, built, talked, failed⟩ : ∃ computer ended f,
        Computer.build echoTwice [] = .ok computer ∧
          Console.converse 9 computer [7] (none : Option (Console.Prompt Unit)) () = some ended ∧
            ended.failure = some f :=
      ⟨_, _, _, rfl, rfl, rfl⟩
    obtain ⟨-, -, -, -, -, -, -, -, sessions⟩ := life_cycle_respected echoTwice
    refine ⟨computer, ended, f, built, talked, failed, fun refused => ?_⟩
    obtain ⟨_, _, _, absent, -⟩ :=
      sessions Unit [] computer 9 [7] none () ended f built talked failed refused
    cases absent

end CellMachine
