import CellMachine.Proofs.Console.Session

/-! # Outputs are causal in the inputs

What a program puts out before it reads a value cannot depend on that value, nor on those behind it.
A session on more values thus puts out at least what it puts out on the first of them, and a session
that ends for another reason than want of input does not look at the values that are left: with more
of them it is the same session. A program run on a list of values is no different.
-/

namespace CellMachine

/-- A run on a longer input puts out more behind what the run on the shorter one puts out. -/
theorem Interpreter.Rests.output_feed {s : Interpreter} {o p : Outcome} {more : List Cell}
    (rests : s.Rests o) (longer : (s.feed more).Rests p) :
    o.final.output <+: p.final.output := by
  obtain ⟨q, restsToo, ⟨-, r, further, rfl⟩ | ⟨-, rfl⟩⟩ := longer.split
  · obtain rfl := rests.unique restsToo
    exact further.traffic.2
  · obtain rfl := rests.unique restsToo
    exact List.prefix_rfl

/-- A machine that is not left without input is fed in the same way when there is more behind. -/
theorem Machine.feed_append {budget : Nat} {inputs : List Cell} {stop : Stop}
    {result : Except Failure (List Cell)} (fed : feed budget inputs stop = some result)
    (sated : Avoids .inputExhausted result) (more : List Cell) :
    feed budget (inputs ++ more) stop = some result := by
  induction inputs generalizing stop with
  | nil =>
    rcases stop with ⟨m, f | ⟨_⟩ | output⟩
    · cases more <;> exact fed
    · cases fed
      exact (sated _ rfl rfl).elim
    · cases more <;> exact fed
  | cons value rest ih =>
    rcases stop with ⟨m, f | ⟨_⟩ | output⟩
    · exact fed
    · obtain ⟨next, resumed, fed⟩ := Option.bind_eq_some_iff.mp fed
      exact Option.bind_eq_some_iff.mpr ⟨next, resumed, ih fed⟩
    · exact fed

/-- Values that a program does not read have no effect on its result. -/
theorem exec_append {budget : Nat} {program : Memory} {inputs : List Cell}
    {result : Except Failure (List Cell)} (answer : exec budget program inputs = some result)
    (sated : Avoids .inputExhausted result) (more : List Cell) :
    exec budget program (inputs ++ more) = some result := by
  obtain ⟨stop, ran, fed⟩ := Option.bind_eq_some_iff.mp answer
  exact Option.bind_eq_some_iff.mpr ⟨stop, ran, Machine.feed_append fed sated more⟩

private theorem steady_exec (program : Memory) (inputs : List Cell) :
    Steady fun budget => exec budget program inputs := by
  have start : Steady fun budget => (Machine.load program).run budget :=
    fun _ _ _ le stops => Machine.execute_mono le stops
  exact start.bind fun _ _ _ _ le fed => Machine.feed_mono le fed

namespace Console

variable {σ : Type} {budget : Nat} {ended : Ended σ}

/-- A session that is not left without a value goes the same way when there are more behind. -/
theorem Session.goOn_append {turns : Nat} {s : Session σ} {turn : Turn}
    (answer : goOn budget none turns s turn = some ended)
    (sated : Avoids .inputExhausted ended.result) (more : List Cell) :
    goOn budget none turns { s with inputs := s.inputs ++ more } turn = some ended := by
  induction turns generalizing s turn with
  | zero => cases answer
  | succ turns ih =>
    rcases status : turn.status with f | ⟨_⟩ | output
    · rw [goOn_of_failed status] at answer ⊢
      exact answer
    · cases inputs : s.inputs with
      | nil =>
        rw [goOn_of_refused status (by simp only [nextValue, collect, inputs]; rfl)] at answer
        cases answer
        exact (sated _ rfl rfl).elim
      | cons value rest =>
        rw [goOn_of_supplied status (by simp only [nextValue, collect, inputs]; rfl)] at answer
        obtain ⟨next, resumed, answer⟩ := Option.bind_eq_some_iff.mp answer
        rw [goOn_of_supplied status (by simp only [nextValue, collect, List.cons_append]; rfl)]
        exact Option.bind_eq_some_iff.mpr ⟨next, resumed, ih answer⟩
    · rw [goOn_of_halted status] at answer ⊢
      exact answer

/-- Values that a session does not come to have no effect on it. -/
theorem converse_append {computer : Computer} {inputs : List Cell} {asked : σ}
    (answer : converse budget computer inputs none asked = some ended)
    (sated : Avoids .inputExhausted ended.result) (more : List Cell) :
    converse budget computer (inputs ++ more) none asked = some ended := by
  obtain ⟨turn, ran, answer⟩ := Option.bind_eq_some_iff.mp answer
  exact Option.bind_eq_some_iff.mpr ⟨turn, ran, Session.goOn_append answer sated more⟩

private theorem steady_converse (computer : Computer) (inputs : List Cell)
    (prompt : Option (Prompt σ)) (asked : σ) :
    Steady fun budget => converse budget computer inputs prompt asked :=
  (computer.steady_execute none).bind fun _ _ _ _ le answer => Session.goOn_mono le le answer

/-- The output of a session on some values is a prefix of its output on more values. Unless the
session ends for want of input, it is the same session on more values, to its output, its failure,
its place and its memory. Likewise, a program that is not left without input has the same result on
more values. -/
theorem outputs_causal (program : Memory) (journal : Journal) (asked : σ)
    (inputs more : List Cell) :
    (∀ budget ended further whole,
      converse budget ⟨.load program, journal⟩ inputs none asked = some ended →
      converse further ⟨.load program, journal⟩ (inputs ++ more) none asked = some whole →
        ended.output <+: whole.output ∧ (Avoids .inputExhausted ended.result → whole = ended)) ∧
    (∀ budget ended,
      converse budget ⟨.load program, journal⟩ inputs none asked = some ended →
      Avoids .inputExhausted ended.result →
        converse budget ⟨.load program, journal⟩ (inputs ++ more) none asked = some ended) ∧
    ∀ budget result, exec budget program inputs = some result → Avoids .inputExhausted result →
      exec budget program (inputs ++ more) = some result ∧
        ∀ further other, exec further program (inputs ++ more) = some other → other = result := by
  refine ⟨?_, ?_, ?_⟩
  · intro budget ended further whole short long
    obtain ⟨o, rests, shows⟩ := shows_of_converse short
    obtain ⟨p, longer, showsToo⟩ := shows_of_converse long
    refine ⟨?_, fun sated => ?_⟩
    · rw [shows.output, showsToo.output]
      exact rests.output_feed longer
    · exact (steady_converse _ _ _ _).unique long (converse_append short sated more)
  · intro budget ended short sated
    exact converse_append short sated more
  · intro budget result short sated
    have long := exec_append short sated more
    exact ⟨long, fun further other answer => (steady_exec _ _).unique answer long⟩

theorem outputs_causal_echoTwice :
    (∃ ended whole, converse 9 ⟨.load echoTwice, {}⟩ [7] none () = some ended ∧
      converse 9 ⟨.load echoTwice, {}⟩ [7, 8] none () = some whole ∧
        ended.output = [7] ∧ ended.output <+: whole.output ∧
          converse 9 ⟨.load echoTwice, {}⟩ [7, 8, 9] none () = some whole) ∧
    exec 9 echoTwice [7, 8, 9] = some (.ok [7, 8]) := by
  obtain ⟨ended, starved, output⟩ : ∃ ended,
      converse 9 ⟨.load echoTwice, {}⟩ [7] none () = some ended ∧ ended.output = [7] :=
    ⟨_, rfl, rfl⟩
  obtain ⟨whole, halted, success⟩ : ∃ whole,
      converse 9 ⟨.load echoTwice, {}⟩ [7, 8] none () = some whole ∧ whole.result = .ok [7, 8] :=
    ⟨_, rfl, rfl⟩
  have ran : exec 9 echoTwice [7, 8] = some (.ok [7, 8]) := rfl
  obtain ⟨shorter, -, -⟩ := outputs_causal echoTwice {} () [7] [8]
  obtain ⟨-, session, program⟩ := outputs_causal echoTwice {} () [7, 8] [9]
  have sated : Avoids .inputExhausted whole.result := success ▸ .ok _
  exact ⟨⟨ended, whole, starved, halted, output, (shorter 9 ended 9 whole starved halted).1,
    session 9 whole halted sated⟩, (program 9 _ ran (.ok _)).1⟩

end Console

end CellMachine
