import CellMachine.Proofs.Amplifier.Steady
import CellMachine.Proofs.Arrangement.Order

/-! # The search is exhaustive

The search for the greatest signal goes over all orderings of the phase settings. As long as no ring
fails, the best so far leads all those that have been visited: no signal is greater, and those
before it are smaller. The search ends with the leader of all orderings, or with the first ring that
fails, behind which no other is run. Since the orderings of a list are those of any other list with
the same settings, neither success nor the greatest signal depends on the order in which the
settings are given.
-/

namespace CellMachine.Amplifier

variable {program : Memory} {mode : Mode} {config : Config}

/-- The best of some orderings that were visited one after the other: the ring has the signal, the
orderings before it have smaller ones, and those after it have none that is greater. -/
def Best.Leads (program : Memory) (mode : Mode) (config : Config) (best : Best)
    (visited : List (List Cell)) : Prop :=
  ∃ before after, visited = before ++ best.phases :: after ∧
    Relays program mode config best.phases (.ok best.signal) ∧
    (∀ ordering ∈ before, ∃ signal < best.signal,
      Relays program mode config ordering (.ok signal)) ∧
    ∀ ordering ∈ after, ∃ signal ≤ best.signal, Relays program mode config ordering (.ok signal)

namespace Best.Leads

variable {best : Best} {visited : List (List Cell)}

/-- No ordering that was visited has a greater signal than the leader. -/
theorem exists_le (leads : best.Leads program mode config visited) {ordering : List Cell}
    (member : ordering ∈ visited) :
    ∃ signal ≤ best.signal, Relays program mode config ordering (.ok signal) := by
  obtain ⟨before, after, rfl, own, less, notGreater⟩ := leads
  rcases List.mem_append.mp member with early | late
  · obtain ⟨signal, lt, relays⟩ := less ordering early
    exact ⟨signal, Int64.le_of_lt lt, relays⟩
  · rcases List.mem_cons.mp late with rfl | late
    · exact ⟨best.signal, Int64.le_refl _, own⟩
    · exact notGreater ordering late

/-- An ordering whose signal is not greater leaves the leader in place. -/
theorem keep (leads : best.Leads program mode config visited) {ordering : List Cell} {signal : Cell}
    (relays : Relays program mode config ordering (.ok signal)) (le : signal ≤ best.signal) :
    best.Leads program mode config (visited ++ [ordering]) := by
  obtain ⟨before, after, rfl, own, less, notGreater⟩ := leads
  refine ⟨before, after ++ [ordering], by simp, own, less, ?_⟩
  intro other member
  rcases List.mem_append.mp member with old | new
  · exact notGreater other old
  · obtain rfl := List.mem_singleton.mp new
    exact ⟨signal, le, relays⟩

/-- An ordering with a greater signal takes the lead. -/
theorem overtake (leads : best.Leads program mode config visited) {ordering : List Cell}
    {signal : Cell} (relays : Relays program mode config ordering (.ok signal))
    (lt : best.signal < signal) :
    (Best.mk signal ordering).Leads program mode config (visited ++ [ordering]) := by
  refine ⟨visited, [], rfl, relays, ?_, nofun⟩
  intro other member
  obtain ⟨earlier, le, relays⟩ := leads.exists_le member
  exact ⟨earlier, Int64.lt_of_le_of_lt le lt, relays⟩

end Best.Leads

namespace Search

def visit (budget : Nat) (program : Memory) (mode : Mode) (config : Config) (ordering : List Cell)
    (s : Search) : Option (ForInStep Search) :=
  (relay budget program ordering mode config).map (s.tally config ordering)

theorem all_eq_forIn (budget : Nat) (program : Memory) (phases : List Cell) (mode : Mode)
    (config : Config) :
    all budget program phases mode config =
      forIn (Arrangement.all phases) ({} : Search) (visit budget program mode config) := by
  unfold all
  exact Arrangement.visitAll_eq_forIn phases _ _

/-- The search has visited these orderings and none of their rings has failed. -/
structure Tallied (program : Memory) (mode : Mode) (config : Config) (visited : List (List Cell))
    (s : Search) : Prop where
  unfailed : s.failure = none
  counted : s.runs = visited.length
  none_of_best : s.best = none → visited = []
  leads : ∀ best, s.best = some best → best.Leads program mode config visited

/-- How the search over some orderings ends: all of them have been visited, or it has stopped at the
first whose ring fails. -/
inductive Ended (program : Memory) (mode : Mode) (config : Config)
    (orderings : List (List Cell)) (s : Search) : Prop
  | complete (tallied : s.Tallied program mode config orderings)
  | stopped {before after : List (List Cell)} {ordering : List Cell} {f : Failure}
      (split : orderings = before ++ ordering :: after)
      (fine : ∀ earlier ∈ before, ∃ signal, Relays program mode config earlier (.ok signal))
      (failed : Relays program mode config ordering (.error f))
      (failure : s.failure = some (f.within (.phases ordering)))
      (counted : s.runs = before.length + 1)

/-- Every ring that a search over some orderings comes to returns. Those behind a ring that fails
are left out. -/
def Returns (program : Memory) (mode : Mode) (config : Config) (orderings : List (List Cell)) :
    Prop :=
  ∀ before ordering after, orderings = before ++ ordering :: after →
    (∀ earlier ∈ before, ∃ signal, Relays program mode config earlier (.ok signal)) →
      ∃ result, Relays program mode config ordering result

variable {s t : Search} {visited : List (List Cell)} {ordering : List Cell} {report : Report Cell}

/-- A ring with a signal is counted, and it becomes the best if its signal is greater. -/
theorem tally_of_ok {signal : Cell} (success : report.result = .ok signal) :
    ∃ t, s.tally config ordering report = .yield t ∧ t.failure = s.failure ∧
      t.runs = s.runs + 1 ∧
        t.best = if s.improves signal then some ⟨signal, ordering⟩ else s.best := by
  -- The count and the log, which have changed before, are not looked at.
  have same (runs : Nat) (log : Array Event) :
      { s with runs, log }.improves signal = s.improves signal := rfl
  simp only [tally, success, same]
  split
  · exact ⟨_, rfl, rfl, rfl, rfl⟩
  · exact ⟨_, rfl, rfl, rfl, rfl⟩

/-- A ring with a signal is tallied and the search goes on. -/
theorem Tallied.tally (tallied : s.Tallied program mode config visited) {signal : Cell}
    (relays : Relays program mode config ordering (.ok signal))
    (success : report.result = .ok signal) :
    ∃ t, s.tally config ordering report = .yield t ∧
      t.Tallied program mode config (visited ++ [ordering]) := by
  obtain ⟨t, yielded, failure, runs, best⟩ := tally_of_ok success
  refine ⟨t, yielded, failure.trans tallied.unfailed, ?_, ?_, ?_⟩
  · rw [runs, tallied.counted, List.length_append, List.length_singleton]
  · intro missing
    rw [best] at missing
    split at missing
    · cases missing
    · next notGreater => simp [improves, missing] at notGreater
  · intro other given
    rw [best] at given
    cases found : s.best with
    | none =>
      obtain rfl := tallied.none_of_best found
      obtain rfl : ⟨signal, ordering⟩ = other := by simpa [found, improves] using given
      exact ⟨[], [], rfl, relays, nofun, nofun⟩
    | some leader =>
      have leads := tallied.leads leader found
      by_cases greater : leader.signal < signal
      · obtain rfl : ⟨signal, ordering⟩ = other := by simpa [found, improves, greater] using given
        exact leads.overtake relays greater
      · obtain rfl : leader = other := by simpa [found, improves, greater] using given
        exact leads.keep relays (Int64.not_lt.mp greater)

/-- The leader has been found among the orderings visited, so all of them have a signal. -/
theorem Tallied.exists_relays (tallied : s.Tallied program mode config visited)
    (member : ordering ∈ visited) :
    ∃ signal, Relays program mode config ordering (.ok signal) := by
  cases found : s.best with
  | none => simp [tallied.none_of_best found] at member
  | some best =>
    obtain ⟨signal, -, relays⟩ := (tallied.leads best found).exists_le member
    exact ⟨signal, relays⟩

/-- A search that goes over the remaining orderings ends with all of them visited or at the first
that fails. -/
theorem Tallied.ended {budget : Nat} {rest : List (List Cell)}
    (tallied : s.Tallied program mode config visited)
    (searched : forIn rest s (visit budget program mode config) = some t) :
    t.Ended program mode config (visited ++ rest) := by
  induction rest generalizing s visited with
  | nil =>
    cases searched
    rw [List.append_nil]
    exact .complete tallied
  | cons ordering rest ih =>
    rw [List.forIn_cons] at searched
    obtain ⟨step, visiting, searched⟩ := Option.bind_eq_some_iff.mp searched
    obtain ⟨report, relayed, rfl⟩ := Option.map_eq_some_iff.mp visiting
    cases result : report.result with
    | ok signal =>
      have relays : Relays program mode config ordering (.ok signal) :=
        ⟨budget, report, relayed, result⟩
      obtain ⟨u, yielded, further⟩ := tallied.tally relays result
      rw [yielded] at searched
      rw [List.append_cons]
      exact ih further searched
    | error f =>
      simp only [Search.tally, result] at searched
      cases searched
      refine .stopped rfl (fun _ => tallied.exists_relays) ⟨budget, report, relayed, result⟩ rfl ?_
      exact congrArg (· + 1) tallied.counted

private theorem steady_forIn (orderings : List (List Cell)) (s : Search) :
    Steady fun budget => forIn orderings s (visit budget program mode config) := by
  induction orderings generalizing s with
  | nil => exact .const _
  | cons ordering rest ih =>
    simp only [List.forIn_cons]
    refine ((steady_relay program ordering mode config).map _).bind fun step => ?_
    cases step with
    | done t => exact .const _
    | yield t => exact ih t

/-- The search comes to an end if every ring that it comes to does. -/
theorem exists_forIn {orderings : List (List Cell)}
    (returns : Returns program mode config orderings) (s : Search) :
    ∃ budget t, forIn orderings s (visit budget program mode config) = some t := by
  induction orderings generalizing s with
  | nil => exact ⟨0, s, rfl⟩
  | cons ordering rest ih =>
    obtain ⟨result, first, report, relayed, rfl⟩ := returns [] ordering rest rfl nofun
    have visiting : visit first program mode config ordering s =
        some (s.tally config ordering report) := by
      rw [visit, relayed, Option.map_some]
    cases step : s.tally config ordering report with
    | done t =>
      refine ⟨first, t, ?_⟩
      rw [List.forIn_cons, visiting, step]
      rfl
    | yield u =>
      -- The search goes on, so the ring has a signal and may stand before those that follow.
      have signal : ∃ signal, report.result = .ok signal := by
        cases result : report.result with
        | ok signal => exact ⟨signal, rfl⟩
        | error f => simp [Search.tally, result] at step
      obtain ⟨signal, success⟩ := signal
      have further : Returns program mode config rest := by
        intro before later after split fine
        refine returns (ordering :: before) later after (by rw [split, List.cons_append]) ?_
        intro earlier member
        rcases List.mem_cons.mp member with rfl | member
        · exact ⟨signal, first, report, relayed, success⟩
        · exact fine earlier member
      obtain ⟨second, t, searched⟩ := ih further u
      refine ⟨max first second, t, ?_⟩
      have relayedToo : relay (max first second) program ordering mode config = some report :=
        steady_relay program ordering mode config (Nat.le_max_left first second) relayed
      rw [List.forIn_cons, visit, relayedToo, Option.map_some, step]
      exact steady_forIn rest u (Nat.le_max_right first second) searched

/-- How the search over all orderings of some phase settings ends. -/
theorem ended_of_all {budget : Nat} {phases : List Cell}
    (searched : all budget program phases mode config = some s) :
    s.Ended program mode config (Arrangement.all phases) := by
  rw [all_eq_forIn] at searched
  have start : Tallied program mode config [] {} := ⟨rfl, rfl, fun _ => rfl, nofun⟩
  exact start.ended searched

end Search

/-! ## The result of a search -/

variable {phases : List Cell}

/-- The search succeeds with the leader of all orderings, or fails with the first that fails. -/
theorem maxSignal_cases {budget : Nat} {report : Report Best}
    (answer : maxSignal budget program phases mode config = some report) :
    (∃ best, report.result = .ok best ∧
      best.Leads program mode config (Arrangement.all phases)) ∨
    ∃ before ordering after f search, report.result = .error (f.within (.phases ordering)) ∧
      Arrangement.all phases = before ++ ordering :: after ∧
      (∀ earlier ∈ before, ∃ signal, Relays program mode config earlier (.ok signal)) ∧
      Relays program mode config ordering (.error f) ∧
      Search.all budget program phases mode config = some search ∧
      search.runs = before.length + 1 := by
  obtain ⟨s, searched, answer⟩ := Option.bind_eq_some_iff.mp answer
  cases Search.ended_of_all searched with
  | complete tallied =>
    simp only [tallied.unfailed] at answer
    cases answer
    cases found : s.best with
    | none =>
      -- The settings as they are given are always visited.
      have given : phases ∈ Arrangement.all phases := Arrangement.mem_all_iff.mpr (.refl phases)
      simp [tallied.none_of_best found] at given
    | some best => exact .inl ⟨best, rfl, tallied.leads best found⟩
  | @stopped before after ordering f split fine failed failure counted =>
    simp only [failure] at answer
    cases answer
    exact .inr ⟨before, ordering, after, f, s, rfl, split, fine, failed, searched, counted⟩

private theorem leads_of_maxSignal {budget : Nat} {report : Report Best} {best : Best}
    (answer : maxSignal budget program phases mode config = some report)
    (success : report.result = .ok best) :
    best.Leads program mode config (Arrangement.all phases) := by
  obtain ⟨leader, found, leads⟩ | ⟨before, ordering, after, f, search, failed, -⟩ :=
    maxSignal_cases answer
  · cases found.symm.trans success
    exact leads
  · cases failed.symm.trans success

/-- The search succeeds exactly when all orderings have a signal. -/
theorem maxSignal_ok_iff {budget : Nat} {report : Report Best}
    (answer : maxSignal budget program phases mode config = some report) :
    (∃ best, report.result = .ok best) ↔
      ∀ ordering, ordering.Perm phases →
        ∃ signal, Relays program mode config ordering (.ok signal) := by
  obtain ⟨best, success, leads⟩ | ⟨before, ordering, after, f, _, failure, split, -, failed, -⟩ :=
    maxSignal_cases answer
  · refine ⟨fun _ ordering same => ?_, fun _ => ⟨best, success⟩⟩
    obtain ⟨signal, -, relays⟩ := leads.exists_le (Arrangement.mem_all_iff.mpr same)
    exact ⟨signal, relays⟩
  · constructor
    · rintro ⟨best, success⟩
      cases failure.symm.trans success
    · intro fine
      have member : ordering ∈ Arrangement.all phases := by simp [split]
      obtain ⟨signal, relays⟩ := fine ordering (Arrangement.mem_all_iff.mp member)
      cases failed.unique relays

/-- The leader of all orderings has the greatest signal of all lists with the same settings. -/
theorem Best.Leads.greatest {best : Best}
    (leads : best.Leads program mode config (Arrangement.all phases)) :
    best.phases.Perm phases ∧ Relays program mode config best.phases (.ok best.signal) ∧
      ∀ ordering signal, ordering.Perm phases →
        Relays program mode config ordering (.ok signal) → signal ≤ best.signal := by
  refine ⟨?_, ?_, ?_⟩
  · obtain ⟨before, after, split, -⟩ := leads
    exact Arrangement.mem_all_iff.mp (by simp [split])
  · obtain ⟨before, after, -, own, -⟩ := leads
    exact own
  · intro ordering signal same relays
    obtain ⟨found, le, relaysToo⟩ := leads.exists_le (Arrangement.mem_all_iff.mpr same)
    cases relays.unique relaysToo
    exact le

/-- Leaders of the orderings of two lists with the same settings have the same signal. -/
theorem Best.Leads.signal_eq {best other : Best} {otherPhases : List Cell}
    (leads : best.Leads program mode config (Arrangement.all phases))
    (leadsToo : other.Leads program mode config (Arrangement.all otherPhases))
    (same : otherPhases.Perm phases) : other.signal = best.signal := by
  obtain ⟨perm, relays, greatest⟩ := leads.greatest
  obtain ⟨permToo, relaysToo, greatestToo⟩ := leadsToo.greatest
  apply Int64.le_antisymm
  · exact greatest _ _ (permToo.trans same) relaysToo
  · exact greatestToo _ _ (perm.trans same.symm) relays

/-- The search returns if every ring that it comes to does. -/
theorem exists_maxSignal
    (returns : Search.Returns program mode config (Arrangement.all phases)) :
    ∃ budget report, maxSignal budget program phases mode config = some report := by
  obtain ⟨budget, s, searched⟩ := Search.exists_forIn returns {}
  rw [← Search.all_eq_forIn] at searched
  refine ⟨budget, ?_⟩
  simp only [maxSignal, searched, bind, Option.bind]
  split <;> exact ⟨_, rfl⟩

/-- The search finds the greatest signal of all orderings of the phase settings. It returns if every
ring that it comes to does, and it succeeds exactly when all orderings have a signal. The best is
then the first of all orderings with the greatest signal, and the settings given in another order
have the same. A search that fails does so with the first ordering whose ring fails, behind which no
ring is run, and the settings given in another order fail too. The order of the search is that of
the orderings when they are collected. -/
theorem maxSignal_exhaustive
    (returns : Search.Returns program mode config (Arrangement.all phases)) :
    (∃ budget report, maxSignal budget program phases mode config = some report) ∧
    (∀ listed, Arrangement.collect phases = .ok listed → listed = Arrangement.all phases) ∧
    ∀ budget report, maxSignal budget program phases mode config = some report →
      ((∃ best, report.result = .ok best) ↔ ∀ ordering, ordering.Perm phases →
        ∃ signal, Relays program mode config ordering (.ok signal)) ∧
      (∀ best, report.result = .ok best →
        best.phases.Perm phases ∧ Relays program mode config best.phases (.ok best.signal) ∧
        (∀ ordering signal, ordering.Perm phases →
          Relays program mode config ordering (.ok signal) → signal ≤ best.signal) ∧
        (∃ before after, Arrangement.all phases = before ++ best.phases :: after ∧
          ∀ earlier ∈ before, ∀ signal, Relays program mode config earlier (.ok signal) →
            signal < best.signal) ∧
        ∀ others, others.Perm phases → ∃ budget report other,
          maxSignal budget program others mode config = some report ∧
            report.result = .ok other ∧ other.signal = best.signal) ∧
      ∀ f, report.result = .error f →
        (∃ before ordering after g search,
          Arrangement.all phases = before ++ ordering :: after ∧
            (∀ earlier ∈ before, ∃ signal, Relays program mode config earlier (.ok signal)) ∧
            Relays program mode config ordering (.error g) ∧ f = g.within (.phases ordering) ∧
            Search.all budget program phases mode config = some search ∧
            search.runs = before.length + 1) ∧
        ∀ others, others.Perm phases → ∀ budget report,
          maxSignal budget program others mode config = some report →
            ∃ g, report.result = .error g := by
  refine ⟨exists_maxSignal returns, fun _ => Arrangement.eq_all_of_collect,
    fun budget report answer => ⟨maxSignal_ok_iff answer, ?_, ?_⟩⟩
  · intro best success
    have leads := leads_of_maxSignal answer success
    obtain ⟨perm, own, greatest⟩ := leads.greatest
    refine ⟨perm, own, greatest, ?_, ?_⟩
    · obtain ⟨before, after, split, -, less, -⟩ := leads
      refine ⟨before, after, split, fun earlier member signal relays => ?_⟩
      obtain ⟨found, lt, relaysToo⟩ := less earlier member
      cases relays.unique relaysToo
      exact lt
    · intro others same
      have fine := (maxSignal_ok_iff answer).mp ⟨best, success⟩
      have returnsToo : Search.Returns program mode config (Arrangement.all others) := by
        intro before ordering after split _
        have member : ordering ∈ Arrangement.all others := by simp [split]
        obtain ⟨signal, relays⟩ := fine ordering ((Arrangement.mem_all_iff.mp member).trans same)
        exact ⟨.ok signal, relays⟩
      obtain ⟨budget', report', answer'⟩ := exists_maxSignal returnsToo
      obtain ⟨other, success'⟩ := (maxSignal_ok_iff answer').mpr
        fun ordering sameToo => fine ordering (sameToo.trans same)
      have leadsToo := leads_of_maxSignal answer' success'
      exact ⟨budget', report', other, answer', success', leads.signal_eq leadsToo same⟩
  · intro f failure
    constructor
    · obtain ⟨best, success, -⟩ | ⟨before, ordering, after, g, search, failed, rest⟩ :=
        maxSignal_cases answer
      · cases failure.symm.trans success
      · cases failure.symm.trans failed
        obtain ⟨split, fine, relays, searched, counted⟩ := rest
        exact ⟨before, ordering, after, g, search, split, fine, relays, rfl, searched, counted⟩
    · intro others same budget' report' answer'
      cases result : report'.result with
      | error g => exact ⟨g, rfl⟩
      | ok other =>
        have fine := (maxSignal_ok_iff answer').mp ⟨other, result⟩
        obtain ⟨best, success⟩ := (maxSignal_ok_iff answer).mpr
          fun ordering sameToo => fine ordering (sameToo.trans same.symm)
        cases failure.symm.trans success

/-- A program that reads its phase setting and a signal, and puts out twice the signal plus the
setting. -/
def weigher : Memory :=
  .ofList [3, 15, 3, 16, 1002, 16, 2, 16, 1, 16, 15, 16, 4, 16, 99, 0, 0]

theorem maxSignal_exhaustive_weigher :
    Search.Returns weigher .chain {} (Arrangement.all [1, 2]) ∧
      ∃ budget report best, maxSignal budget weigher [1, 2] .chain {} = some report ∧
        report.result = .ok best ∧ best = ⟨5, [2, 1]⟩ := by
  have all : Arrangement.all [(1 : Cell), 2] = [[1, 2], [2, 1]] := rfl
  have rising : Relays weigher .chain {} [1, 2] (.ok 4) := ⟨20, _, rfl, rfl⟩
  have falling : Relays weigher .chain {} [2, 1] (.ok 5) := ⟨20, _, rfl, rfl⟩
  have signals (ordering : List Cell) (same : ordering.Perm [1, 2]) :
      ordering = [1, 2] ∨ ordering = [2, 1] := by
    simpa [all] using Arrangement.mem_all_iff.mpr same
  have fine (ordering : List Cell) (same : ordering.Perm [1, 2]) :
      ∃ signal, Relays weigher .chain {} ordering (.ok signal) := by
    rcases signals ordering same with rfl | rfl
    · exact ⟨4, rising⟩
    · exact ⟨5, falling⟩
  have returns : Search.Returns weigher .chain {} (Arrangement.all [1, 2]) := by
    intro before ordering after split _
    have member : ordering ∈ Arrangement.all [1, 2] := by simp [split]
    obtain ⟨signal, relays⟩ := fine ordering (Arrangement.mem_all_iff.mp member)
    exact ⟨.ok signal, relays⟩
  obtain ⟨⟨budget, report, answer⟩, -, known⟩ := maxSignal_exhaustive returns
  obtain ⟨succeeds, found, -⟩ := known budget report answer
  obtain ⟨⟨signal, phases⟩, success⟩ := succeeds.mpr fine
  obtain ⟨perm, own, greatest, -⟩ := found _ success
  refine ⟨returns, budget, report, _, answer, success, ?_⟩
  have least : 5 ≤ signal := greatest _ _ (.swap 1 2 []) falling
  rcases signals phases perm with rfl | rfl
  · cases own.unique rising
    exact absurd least (by decide)
  · cases own.unique falling
    rfl

end CellMachine.Amplifier
