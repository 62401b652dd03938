import CellMachine.Proofs.Machine.Steady
import CellMachine.Proofs.Patch.Order
import Mathlib.Data.Prod.Lex
import Mathlib.Data.List.Range

/-! # The first noun and verb

A search tries the nouns and the verbs below one hundred, the nouns first, and passes over the pairs
with which the program fails. When all of its runs return it finds the least pair that leaves the
target in cell 0, or reports that there is none. Settings only matter for the size of the memory, so
a search without settings agrees with the single runs that report to a journal; settings that are
refused are reported as such and never as the want of a match.
-/

namespace CellMachine

/-! ## What a patched run comes to -/

section Runs

variable {program : Memory} {patches : List Patch} {settings others : List Setting}
  {result : Except Failure Memory}

private theorem steady_runPatched (program : Memory) (patches : List Patch)
    (settings : List Setting) :
    Steady fun budget => runPatched budget program patches settings := by
  cases built : Computer.build program settings with
  | error f =>
    simp only [runPatched_of_refused built]
    exact .const _
  | ok computer =>
    cases patched : Patch.applyAll computer.machine.memory patches with
    | error f =>
      simp only [runPatched_of_unpatched built patched]
      exact .const _
    | ok memory =>
      simp only [runPatched_of_patched built patched]
      exact (Computer.steady_execute _ none).map _

/-- A patched run comes to one result only. -/
theorem ComesTo.unique {other : Except Failure Memory}
    (comes : ComesTo program patches settings result)
    (comesToo : ComesTo program patches settings other) : result = other := by
  obtain ⟨budget, run, answer, rfl⟩ := comes
  obtain ⟨budget', run', answer', rfl⟩ := comesToo
  rw [(steady_runPatched program patches settings).unique answer answer']

/-- A run whose patches are refused comes to their failure. -/
theorem comesTo_of_unpatched {setup : Setup} {f : Failure}
    (valid : Setup.ofSettings settings = .ok setup)
    (failed : Patch.applyAll (program.grow setup.minSize) patches = .error f) :
    ComesTo program patches settings result ↔ result = .error f := by
  have ran := runPatched_of_unpatched (Computer.build_of_valid valid program) failed
  constructor
  · rintro ⟨budget, run, answer, rfl⟩
    rw [ran] at answer
    cases answer
    rfl
  · rintro rfl
    exact ⟨0, _, ran 0, rfl⟩

/-- Of the settings only the size of the memory matters for what a run comes to. -/
theorem comesTo_congr {setup other : Setup} (valid : Setup.ofSettings settings = .ok setup)
    (validToo : Setup.ofSettings others = .ok other) (same : setup.minSize = other.minSize) :
    ComesTo program patches settings result ↔ ComesTo program patches others result := by
  cases patched : Patch.applyAll (program.grow setup.minSize) patches with
  | error f =>
    rw [comesTo_of_unpatched valid patched, comesTo_of_unpatched validToo (same ▸ patched)]
  | ok memory => rw [comesTo_iff valid patched, comesTo_iff validToo (same ▸ patched)]

end Runs

/-! ## Pairs that match -/

section Pairs

variable {budget : Nat} {program : Memory} {target : Cell} {settings : List Setting}
  {pair : Cell × Cell}

/-- What a program comes to when it is run with a noun and a verb. -/
abbrev Gives (program : Memory) (settings : List Setting) (pair : Cell × Cell)
    (result : Except Failure Memory) : Prop :=
  ComesTo program (Patch.nounVerb pair.1 pair.2) settings result

/-- With the pair, the program halts and leaves the target in cell 0. -/
def Leaves (program : Memory) (target : Cell) (settings : List Setting) (pair : Cell × Cell) :
    Prop :=
  ∃ memory, Gives program settings pair (.ok memory) ∧ memory.cells[0]? = some target

def PatchedRun.firstCell? (run : PatchedRun) : Option Cell :=
  run.result.toOption.bind fun memory => memory.cells[0]?

/-- Whether a pair matches is read off any of its runs that return. -/
theorem leaves_iff_firstCell? {run : PatchedRun}
    (ran : runPatched budget program (Patch.nounVerb pair.1 pair.2) settings = some run) :
    Leaves program target settings pair ↔ run.firstCell? = some target := by
  have own : Gives program settings pair run.result := ⟨budget, run, ran, rfl⟩
  constructor
  · rintro ⟨memory, gives, found⟩
    rw [PatchedRun.firstCell?, own.unique gives]
    exact found
  · intro found
    obtain ⟨memory, halted, found⟩ := Option.bind_eq_some_iff.mp found
    refine ⟨memory, ?_, found⟩
    cases result : run.result with
    | error f => rw [result] at halted; cases halted
    | ok memory' =>
      rw [result] at halted own
      cases halted
      exact own

/-- The single run with a noun and a verb gives the target exactly if the pair leaves it. -/
theorem patchedResult_iff :
    (∃ budget events, patchedResult budget program pair.1 pair.2 settings =
      some (.ok target, events)) ↔ Leaves program target settings pair := by
  constructor
  · rintro ⟨budget, events, answer⟩
    obtain ⟨run, ran, answer⟩ := Option.bind_eq_some_iff.mp answer
    rw [leaves_iff_firstCell? ran, PatchedRun.firstCell?]
    cases result : run.result with
    | error f => rw [result] at answer; cases answer
    | ok memory =>
      rw [result] at answer
      cases answer
      have inside := runPatched_contains ran result ⟨1, pair.1⟩ List.mem_cons_self
      have first : 0 < memory.cells.size := Nat.zero_lt_of_lt inside.2
      simp [Except.toOption, Array.getD, first]
  · rintro ⟨memory, ⟨budget, run, ran, halted⟩, found⟩
    refine ⟨budget, run.events, Option.bind_eq_some_iff.mpr ⟨run, ran, ?_⟩⟩
    simp [halted, Except.map, Array.getD_eq_getD_getElem?, found]

def Tried (pair : Cell × Cell) : Prop :=
  (0 ≤ pair.1 ∧ pair.1 < 100) ∧ 0 ≤ pair.2 ∧ pair.2 < 100

/-- The pair comes before the other one: its noun is less, or its verb with the same noun. -/
def Precedes : Cell × Cell → Cell × Cell → Prop :=
  Prod.Lex (· < ·) (· < ·)

/-- The pair is the least of those tried that have the property. -/
structure IsLeastTried (property : Cell × Cell → Prop) (pair : Cell × Cell) : Prop where
  tried : Tried pair
  holds : property pair
  least : ∀ other, Tried other → property other → other = pair ∨ Precedes pair other

private theorem toInt_ofNat_of_lt_hundred {n : Nat} (small : n < 100) : (Int64.ofNat n).toInt = n :=
  Int64.toInt_ofNat_of_lt (Nat.lt_of_lt_of_le small (by decide))

theorem mem_nounVerbRange {c : Cell} : c ∈ nounVerbRange ↔ 0 ≤ c ∧ c < 100 := by
  have bounds : (0 ≤ c ∧ c < 100) ↔ 0 ≤ c.toInt ∧ c.toInt < 100 :=
    and_congr Int64.le_iff_toInt_le Int64.lt_iff_toInt_lt
  rw [nounVerbRange, List.mem_map, bounds]
  constructor
  · rintro ⟨n, member, rfl⟩
    have small := List.mem_range.mp member
    rw [toInt_ofNat_of_lt_hundred small]
    omega
  · rintro ⟨nonneg, small⟩
    refine ⟨c.toInt.toNat, List.mem_range.mpr (by omega), ?_⟩
    rw [← Int64.toInt_inj, toInt_ofNat_of_lt_hundred (by omega)]
    omega

private theorem pairwise_nounVerbRange : nounVerbRange.Pairwise (· < ·) := by
  rw [nounVerbRange, List.pairwise_map]
  refine List.pairwise_lt_range.imp_of_mem fun memberLess member less => ?_
  rw [Int64.lt_iff_toInt_lt, toInt_ofNat_of_lt_hundred (List.mem_range.mp memberLess),
    toInt_ofNat_of_lt_hundred (List.mem_range.mp member)]
  exact Int.ofNat_lt.mpr less

theorem mem_nounVerbPairs : pair ∈ nounVerbPairs ↔ Tried pair := by
  obtain ⟨noun, verb⟩ := pair
  simp [nounVerbPairs, Tried, mem_nounVerbRange]

/-- The pairs are tried in their order. -/
theorem pairwise_nounVerbPairs : nounVerbPairs.Pairwise Precedes := by
  rw [nounVerbPairs, List.pairwise_flatMap]
  constructor
  · intro noun _
    rw [List.pairwise_map]
    exact pairwise_nounVerbRange.imp fun less => .right noun less
  · refine pairwise_nounVerbRange.imp ?_
    intro noun later less first member second memberToo
    obtain ⟨_, -, rfl⟩ := List.mem_map.mp member
    obtain ⟨_, -, rfl⟩ := List.mem_map.mp memberToo
    exact .left _ _ less

/-! ## The search -/

variable {pairs : List (Cell × Cell)}

private theorem firstMatch_cons (budget : Nat) (program : Memory) (target : Cell)
    (settings : List Setting) (pair : Cell × Cell) (rest : List (Cell × Cell)) :
    firstMatch budget program target settings (pair :: rest) =
      (runPatched budget program (Patch.nounVerb pair.1 pair.2) settings).bind fun run =>
        if run.firstCell? = some target then some (some pair)
        else firstMatch budget program target settings rest := by
  rw [firstMatch]
  rcases runPatched budget program (Patch.nounVerb pair.1 pair.2) settings with
    _ | ⟨f | memory, events⟩ <;> rfl

private theorem steady_firstMatch (program : Memory) (target : Cell) (settings : List Setting)
    (pairs : List (Cell × Cell)) :
    Steady fun budget => firstMatch budget program target settings pairs := by
  induction pairs with
  | nil => exact .const _
  | cons pair rest ih =>
    simp only [firstMatch_cons]
    refine (steady_runPatched program _ settings).bind fun run => ?_
    split
    · exact .const _
    · exact ih

/-- The answer of a search: the first pair of a list that matches, or that there is none. -/
def IsFirst (property : Cell × Cell → Prop) (pairs : List (Cell × Cell)) :
    Option (Cell × Cell) → Prop
  | none => ∀ pair ∈ pairs, ¬ property pair
  | some pair => pair ∈ pairs ∧ property pair ∧
      ∀ other ∈ pairs, property other → other = pair ∨ Precedes pair other

/-- A search through pairs that are in order answers with the first of them that matches. -/
theorem isFirst_of_firstMatch (sorted : pairs.Pairwise Precedes) {answer : Option (Cell × Cell)}
    (found : firstMatch budget program target settings pairs = some answer) :
    IsFirst (Leaves program target settings) pairs answer := by
  induction pairs with
  | nil =>
    cases found
    exact nofun
  | cons pair rest ih =>
    obtain ⟨before, sorted⟩ := List.pairwise_cons.mp sorted
    rw [firstMatch_cons] at found
    obtain ⟨run, ran, found⟩ := Option.bind_eq_some_iff.mp found
    have own : Leaves program target settings pair ↔ _ := leaves_iff_firstCell? ran
    split at found
    · next hit =>
      cases found
      refine ⟨List.mem_cons_self, own.mpr hit, List.forall_mem_cons.mpr ⟨fun _ => .inl rfl, ?_⟩⟩
      exact fun other member _ => .inr (before other member)
    · next missed =>
      have fails : ¬ Leaves program target settings pair := mt own.mp missed
      have rest := ih sorted found
      cases answer with
      | none => exact List.forall_mem_cons.mpr ⟨fails, rest⟩
      | some first =>
        obtain ⟨member, hit, least⟩ := rest
        refine ⟨List.mem_cons_of_mem _ member, hit, List.forall_mem_cons.mpr ⟨?_, least⟩⟩
        exact fun leaves => (fails leaves).elim

/-- A search whose runs all return answers. -/
theorem exists_firstMatch (target : Cell)
    (returns : ∀ pair ∈ pairs, ∃ result, Gives program settings pair result) :
    ∃ budget answer, firstMatch budget program target settings pairs = some answer := by
  induction pairs with
  | nil => exact ⟨0, none, rfl⟩
  | cons pair rest ih =>
    obtain ⟨⟨result, budget, run, ran, -⟩, others⟩ := List.forall_mem_cons.mp returns
    obtain ⟨budget', answer, found⟩ := ih others
    let larger := max budget budget'
    have ran : runPatched larger program _ settings = some run :=
      steady_runPatched program _ settings (Nat.le_max_left budget budget') ran
    have found : firstMatch larger program target settings rest = some answer :=
      steady_firstMatch program target settings rest (Nat.le_max_right budget budget') found
    refine ⟨larger, if run.firstCell? = some target then some pair else answer, ?_⟩
    rw [firstMatch_cons, ran, Option.bind_some, found]
    split <;> rfl

theorem Precedes.asymm {other : Cell × Cell} (before : Precedes pair other) :
    ¬ Precedes other pair := by
  obtain ⟨noun, verb⟩ := pair
  obtain ⟨noun', verb'⟩ := other
  simp only [Precedes, Prod.lex_def] at before ⊢
  rintro (less | ⟨same, less⟩) <;> obtain lessToo | ⟨sameToo, lessToo⟩ := before
  · exact Int64.lt_asymm less lessToo
  · exact Int64.lt_irrefl (sameToo ▸ less)
  · exact Int64.lt_irrefl (same ▸ lessToo)
  · exact Int64.lt_asymm less lessToo

/-- There is only one least pair. -/
theorem IsLeastTried.unique {property : Cell × Cell → Prop} {other : Cell × Cell}
    (least : IsLeastTried property pair) (leastToo : IsLeastTried property other) :
    pair = other := by
  obtain same | before := least.least other leastToo.tried leastToo.holds
  · exact same.symm
  · obtain same | after := leastToo.least pair least.tried least.holds
    · exact same
    · exact (before.asymm after).elim

end Pairs

/-! ## What a search comes to -/

section Search

variable {budget : Nat} {program : Memory} {target : Cell} {settings : List Setting}
  {property : Cell × Cell → Prop}

/-- A search finds the least pair with the property, and fails exactly if there is none. -/
structure FindsLeast (program : Memory) (target : Cell) (settings : List Setting)
    (property : Cell × Cell → Prop) : Prop where
  found_iff : ∀ pair, (∃ budget, findNounVerb budget program target settings = some (.ok pair)) ↔
    IsLeastTried property pair
  failed_iff : ∀ f, (∃ budget, findNounVerb budget program target settings = some (.error f)) ↔
    f = Cause.noMatch.within (.target target) ∧ ∀ pair, Tried pair → ¬ property pair

def searchResult (target : Cell) : Option (Cell × Cell) → Except Failure (Cell × Cell)
  | some pair => .ok pair
  | none => .error (Cause.noMatch.within (.target target))

private theorem findNounVerb_of_valid (valid : ∀ setting ∈ settings, setting.refusal? = none)
    (budget : Nat) (program : Memory) (target : Cell) :
    findNounVerb budget program target settings =
      (firstMatch budget program target settings nounVerbPairs).map (searchResult target) := by
  simp only [findNounVerb, Setup.ofSettings_of_valid valid]
  rcases firstMatch budget program target settings nounVerbPairs with _ | _ | pair <;> rfl

/-- The answer of a search through all the pairs, as far as there is a least one. -/
theorem isFirst_nounVerbPairs {answer : Option (Cell × Cell)} :
    IsFirst property nounVerbPairs answer ↔
      match answer with
      | some pair => IsLeastTried property pair
      | none => ∀ pair, Tried pair → ¬ property pair := by
  cases answer with
  | none => simp only [IsFirst, mem_nounVerbPairs]
  | some pair =>
    simp only [IsFirst, mem_nounVerbPairs]
    exact ⟨fun ⟨tried, holds, least⟩ => ⟨tried, holds, least⟩,
      fun ⟨tried, holds, least⟩ => ⟨tried, holds, least⟩⟩

/-- A search with valid settings finds the least pair that leaves the target, once all of its runs
return. -/
theorem findsLeast_of_returns (valid : ∀ setting ∈ settings, setting.refusal? = none)
    (returns : ∀ pair, Tried pair → ∃ result, Gives program settings pair result) :
    FindsLeast program target settings (Leaves program target settings) := by
  have search (budget : Nat) := findNounVerb_of_valid valid budget program target
  have first {budget : Nat} {answer : Option (Cell × Cell)}
      (found : firstMatch budget program target settings nounVerbPairs = some answer) :=
    isFirst_nounVerbPairs.mp (isFirst_of_firstMatch pairwise_nounVerbPairs found)
  obtain ⟨enough, answer, found⟩ := exists_firstMatch target fun pair member =>
    returns pair (mem_nounVerbPairs.mp member)
  constructor
  · intro pair
    constructor
    · rintro ⟨budget, answer⟩
      rw [search, Option.map_eq_some_iff] at answer
      obtain ⟨_ | other, found, same⟩ := answer <;> cases same
      exact first found
    · intro least
      have own := first found
      cases answer with
      | none => exact (own pair least.tried least.holds).elim
      | some other =>
        obtain rfl := own.unique least
        exact ⟨enough, by rw [search, found]; rfl⟩
  · intro f
    constructor
    · rintro ⟨budget, answer⟩
      rw [search, Option.map_eq_some_iff] at answer
      obtain ⟨_ | other, found, same⟩ := answer <;> cases same
      exact ⟨rfl, first found⟩
    · rintro ⟨rfl, missing⟩
      have own := first found
      cases answer with
      | none => exact ⟨enough, by rw [search, found]; rfl⟩
      | some other => exact (missing other own.tried own.holds).elim

private theorem findNounVerb_of_refused {f : Failure}
    (refused : settings.findSome? Setting.refusal? = some f) (budget : Nat) (program : Memory)
    (target : Cell) : findNounVerb budget program target settings = some (.error f) := by
  simp only [findNounVerb, Setup.ofSettings_of_refused refused]

/-- Without settings a pair matches exactly if the single run that reports to a journal gives the
target. -/
theorem leaves_eq_patchedResult (program : Memory) (target : Cell) (active : Bool) :
    Leaves program target [] = fun pair => ∃ budget events,
      patchedResult budget program pair.1 pair.2 [.journal active] = some (.ok target, events) := by
  funext pair
  have plain : Setup.ofSettings [] = .ok {} := rfl
  have reporting : Setup.ofSettings [.journal active] = .ok { active } := rfl
  have same {result : Except Failure Memory} :
      Gives program [] pair result ↔ Gives program [.journal active] pair result :=
    comesTo_congr plain reporting rfl
  rw [patchedResult_iff]
  exact propext (exists_congr fun memory => and_congr_left fun _ => same)

/-- A search whose runs all return finds the least noun and verb with which the program leaves the
target in cell 0, and fails for want of a match exactly if there are none; runs that fail do not
stop it. Without settings these are the pairs for which the single run gives the target. Settings
that are refused make the search fail as the first of them does, and never for want of a match. -/
theorem findNounVerb_least (program : Memory) (target : Cell) :
    ((∀ pair, Tried pair → ∃ result, Gives program [] pair result) → ∀ active,
      FindsLeast program target [] fun pair => ∃ budget events,
        patchedResult budget program pair.1 pair.2 [.journal active] = some (.ok target, events)) ∧
    (∀ settings, (∀ setting ∈ settings, setting.refusal? = none) →
      (∀ pair, Tried pair → ∃ result, Gives program settings pair result) →
        FindsLeast program target settings (Leaves program target settings)) ∧
    ∀ settings f, settings.findSome? Setting.refusal? = some f →
      (∀ budget, findNounVerb budget program target settings = some (.error f)) ∧
        f.cause ≠ .noMatch := by
  refine ⟨fun returns active => ?_, fun _ => findsLeast_of_returns, fun settings f refused => ?_⟩
  · rw [← leaves_eq_patchedResult program target active]
    exact findsLeast_of_returns (fun _ member => (List.not_mem_nil member).elim) returns
  · obtain ⟨setting, -, refusal⟩ := List.exists_of_findSome?_eq_some refused
    refine ⟨fun budget => findNounVerb_of_refused refused budget program target, ?_⟩
    obtain ⟨size, cause⟩ | cause := Setting.cause_of_refusal? refusal <;> rw [cause] <;> nofun

end Search

/-- A program that adds the noun to the cell whose address is the verb. -/
def shifter : Memory :=
  .ofList [101, 0, 0, 0, 99]

/-- The verb may lie outside the memory, and then the program fails; else it halts. -/
theorem shifter_rests (noun verb : Cell) :
    ∃ o, (Interpreter.load (.ofList [101, noun, verb, 0, 99]) []).Rests o := by
  have fetched : (Memory.ofList [101, noun, verb, 0, 99]).read 0 = .ok 101 := rfl
  cases found : (Memory.ofList [101, noun, verb, 0, 99]).read verb with
  | error f =>
    have second : Operand.second.resolve (.ofList [101, noun, verb, 0, 99]) 0 101 = .error f :=
      found
    have failed : (Interpreter.load (.ofList [101, noun, verb, 0, 99]) []).step =
        .error (.failed (Instruction.unresolved ⟨.add, noun, 0, 0⟩ 0 f).failure) := by
      simp only [Interpreter.step, Interpreter.load, Instruction.decode, fetched, second]
      rfl
    exact ⟨_, .rest failed⟩
  | ok value =>
    have second : Operand.second.resolve (.ofList [101, noun, verb, 0, 99]) 0 101 = .ok value :=
      found
    have added : (Interpreter.load (.ofList [101, noun, verb, 0, 99]) []).step =
        .ok ⟨4, .ofList [noun + value, noun, verb, 0, 99], [], []⟩ := by
      simp only [Interpreter.step, Interpreter.load, Instruction.decode, fetched, second]
      rfl
    have last : (Memory.ofList [noun + value, noun, verb, 0, 99]).read 4 = .ok 99 := rfl
    have halted : (Interpreter.mk 4 (.ofList [noun + value, noun, verb, 0, 99]) [] []).step =
        .error .halted := by
      simp only [Interpreter.step, Instruction.decode, last]
      rfl
    exact ⟨_, .next added (.rest halted)⟩

private theorem shifter_returns {settings : List Setting} {setup : Setup}
    (valid : Setup.ofSettings settings = .ok setup) (small : setup.minSize = 0)
    (pair : Cell × Cell) : ∃ result, Gives shifter settings pair result := by
  have patched : Patch.applyAll (shifter.grow setup.minSize) (Patch.nounVerb pair.1 pair.2) =
      .ok (.ofList [101, pair.1, pair.2, 0, 99]) := by
    rw [small]
    rfl
  obtain ⟨o, rests⟩ := shifter_rests pair.1 pair.2
  exact ⟨_, (comesTo_iff valid patched).mpr ⟨o, rests, rfl⟩⟩

theorem findNounVerb_least_shifter :
    FindsLeast shifter 100 [] (fun pair => ∃ budget events,
      patchedResult budget shifter pair.1 pair.2 [.journal true] = some (.ok 100, events)) ∧
    IsLeastTried (Leaves shifter 100 [.name "shifter"]) (1, 4) ∧
    ∀ budget, findNounVerb budget shifter 100 [.name "shifter", .minSize (-1), .missingJournal] =
      some (.error ⟨.invalidMemorySize (-1), []⟩) := by
  have found : findNounVerb 3 shifter 100 [.name "shifter"] = some (.ok (1, 4)) := by decide +kernel
  obtain ⟨plain, valid, refused⟩ := findNounVerb_least shifter 100
  refine ⟨plain (fun pair _ => shifter_returns rfl rfl pair) true, ?_, ?_⟩
  · have finds := valid [.name "shifter"] (by decide) fun pair _ => shifter_returns rfl rfl pair
    exact (finds.found_iff (1, 4)).mp ⟨3, found⟩
  · exact (refused _ _ rfl).1

end CellMachine
