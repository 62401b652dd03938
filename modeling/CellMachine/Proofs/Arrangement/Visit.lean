import CellMachine.Proofs.Arrangement.Sweep

/-! # Visits

The arrangements that follow one another from the first on are those of a sweep of all places, and
the last of them has no next one. Visiting all orderings of a list is therefore a loop over a list
that does not depend on the visitor.
-/

namespace CellMachine.Arrangement

open Equiv

variable {α : Type}

/-- The arrangements from one up to another have these orderings, one after the other. -/
inductive Run : Arrangement α → List (List α) → Arrangement α → Prop
  | last (a : Arrangement α) : Run a [a.values.toList] a
  | next {a b c : Arrangement α} {orderings : List (List α)} (step : a.next? = some b)
      (rest : Run b orderings c) : Run a (a.values.toList :: orderings) c

/-- A run is continued by a run from the next arrangement. -/
theorem Run.append {a b c d : Arrangement α} {front back : List (List α)} (before : Run a front b)
    (step : b.next? = some c) (after : Run c back d) : Run a (front ++ back) d := by
  induction before with
  | last a => exact .next step after
  | next first _ ih => exact .next first (ih step)

/-! ## Counters -/

/-- The counters below the first that has not run out start again. -/
theorem tick_of_lt (place run : ℕ) {counter : ℕ} (lt : counter < place + run) (rest : List ℕ) :
    tick place (List.range' place run ++ counter :: rest) =
      some (⟨place + run, counter⟩, List.replicate run 0 ++ (counter + 1) :: rest) := by
  induction run generalizing place with
  | zero => simp [tick, show counter < place from lt]
  | succ run ih =>
    rw [List.range'_succ, List.cons_append, tick, if_neg (lt_irrefl place),
      ih (place + 1) (by omega)]
    simp [List.replicate_succ, Nat.add_right_comm, Nat.add_assoc]

/-- No exchange is left when all counters have run out. -/
theorem tick_range' (place run : ℕ) : tick place (List.range' place run) = none := by
  induction run generalizing place with
  | zero => rfl
  | succ run ih => rw [List.range'_succ, tick, if_neg (lt_irrefl place), ih]

/-! ## Orderings -/

/-- The ordering holds at each place what the values hold at the place given by the permutation. -/
structure Reads (values : List α) (σ : Perm ℕ) (ordering : List α) : Prop where
  length : ordering.length = values.length
  atPlace : ∀ place : ℕ, ordering[place]? = values[σ place]?

theorem Reads.refl (values : List α) : Reads values 1 values :=
  ⟨rfl, fun _ => rfl⟩

theorem Reads.trans {values middle ordering : List α} {σ τ : Perm ℕ} (first : Reads values σ middle)
    (second : Reads middle τ ordering) : Reads values (σ * τ) ordering :=
  ⟨second.length.trans first.length,
    fun place => (second.atPlace place).trans (first.atPlace (τ place))⟩

/-- The exchange of two places that exist. -/
theorem reads_swapIfInBounds {values : Array α} {i j : ℕ} (iBelow : i < values.size)
    (jBelow : j < values.size) :
    Reads values.toList (swap i j) (values.swapIfInBounds i j).toList := by
  refine ⟨by simp, fun place => ?_⟩
  have exchanged : values.swapIfInBounds i j = values.swap i j := by
    simp [Array.swapIfInBounds, iBelow, jBelow]
  rw [Array.getElem?_toList, Array.getElem?_toList, exchanged, Array.getElem?_swap, swap_apply_def]
  split_ifs <;> grind

/-- A sweep of the first places, after which their counters have all run out. -/
theorem run_sweep (k : ℕ) (values : Array α) (le : k ≤ values.size) (rest : List ℕ) :
    ∃ orderings final,
      Run ⟨values, List.replicate k 0 ++ rest⟩ orderings ⟨final, List.range k ++ rest⟩ ∧
        List.Forall₂ (Reads values.toList) (sweep k) orderings ∧
          Reads values.toList (ending k) final.toList := by
  induction k generalizing values rest with
  | zero => exact ⟨_, values, .last _, .cons (.refl _) .nil, .refl _⟩
  | succ k ih =>
    suffices parts : ∀ c ≤ k, ∃ orderings final,
        Run ⟨values, List.replicate (k + 1) 0 ++ rest⟩ orderings
            ⟨final, List.range k ++ c :: rest⟩ ∧
          List.Forall₂ (Reads values.toList)
              ((List.range (c + 1)).flatMap fun c => (sweep k).map (opening (ending k) k c * ·))
              orderings ∧
            Reads values.toList (opening (ending k) k c * ending k) final.toList by
      obtain ⟨orderings, final, run, read, left⟩ := parts k le_rfl
      refine ⟨orderings, final, ?_, read, left⟩
      rwa [List.range_succ, List.append_assoc, List.singleton_append]
    intro c cLe
    induction c with
    | zero =>
      obtain ⟨orderings, final, run, read, left⟩ := ih values (by omega) (0 :: rest)
      refine ⟨orderings, final, ?_, by simpa [opening] using read, left⟩
      rwa [List.replicate_succ', List.append_assoc, List.singleton_append]
    | succ c parts =>
      obtain ⟨front, middle, before, readFront, atMiddle⟩ := parts (by omega)
      have size : middle.size = values.size := by simpa using atMiddle.length
      have partner : (Exchange.mk k c).partner < k + 1 := by
        simp only [Exchange.partner]
        split_ifs <;> omega
      let exchanged := middle.swapIfInBounds (Exchange.mk k c).partner k
      have step : Arrangement.next? ⟨middle, List.range k ++ c :: rest⟩ =
          some ⟨exchanged, List.replicate k 0 ++ (c + 1) :: rest⟩ := by
        have ticked := tick_of_lt 0 k (show c < 0 + k by omega) rest
        rw [← List.range_eq_range'] at ticked
        simp only [next?, ticked, Nat.zero_add, exchanged]
      have atExchanged : Reads values.toList (opening (ending k) k (c + 1)) exchanged.toList :=
        atMiddle.trans (reads_swapIfInBounds (by omega) (by dsimp only; omega))
      obtain ⟨back, final, after, readBack, left⟩ :=
        ih exchanged (by simp only [exchanged, Array.size_swapIfInBounds]; omega) ((c + 1) :: rest)
      refine ⟨front ++ back, final, before.append step after, ?_, ?_⟩
      · rw [List.range_succ, List.flatMap_append, List.flatMap_singleton]
        exact List.rel_append readFront
          (List.forall₂_map_left_iff.mpr (readBack.imp fun _ _ => atExchanged.trans))
      · exact atExchanged.trans left

/-! ## Visiting -/

variable {β : Type} {m : Type → Type}

theorem factorial_eq (n : ℕ) : factorial n = n.factorial := by
  induction n with
  | zero => rfl
  | succ n ih => rw [factorial, ih, Nat.factorial_succ]

/-- Visiting goes over the orderings of a run that ends with an arrangement without a next one. -/
theorem visitFrom_eq_forIn [Monad m] {a last : Arrangement α}
    {orderings : List (List α)} (run : Run a orderings last) (stuck : last.next? = none) {limit : ℕ}
    (le : orderings.length ≤ limit) (visit : List α → β → m (ForInStep β)) (state : β) :
    visitFrom visit limit a state = forIn orderings state visit := by
  induction run generalizing limit state with
  | last a =>
    obtain ⟨limit, rfl⟩ := Nat.exists_eq_add_one.mpr (Nat.lt_of_lt_of_le Nat.zero_lt_one le)
    simp only [visitFrom, List.forIn_cons, List.forIn_nil, stuck]
    refine bind_congr fun answer => ?_
    cases answer <;> rfl
  | next step _ ih =>
    rw [List.length_cons] at le
    obtain ⟨limit, rfl⟩ := Nat.exists_eq_add_one.mpr (Nat.lt_of_lt_of_le (Nat.succ_pos _) le)
    simp only [visitFrom, List.forIn_cons, step, ih stuck (Nat.le_of_succ_le_succ le)]
    refine bind_congr fun answer => ?_
    cases answer <;> rfl

/-- From the first arrangement on, a sweep of all places is made. -/
theorem run_first (values : List α) :
    ∃ orderings last, Run (first values) orderings last ∧ last.next? = none ∧
      List.Forall₂ (Reads values) (sweep values.length) orderings := by
  obtain ⟨orderings, final, run, read, -⟩ := run_sweep values.length values.toArray (by simp) []
  have start : first values = ⟨values.toArray, List.replicate values.length 0 ++ []⟩ := by
    simp [first]
  refine ⟨orderings, _, start ▸ run, ?_, read⟩
  rw [List.append_nil, List.range_eq_range', next?, tick_range']

/-- All orderings are those of the arrangements from the first up to one without a next, and a
visitor goes over them until it is done. -/
theorem all_spec (values : List α) :
    (∃ last, Run (first values) (all values) last ∧ last.next? = none) ∧
      List.Forall₂ (Reads values) (sweep values.length) (all values) ∧
        ∀ {β : Type} {m : Type → Type} [Monad m]
          (visit : List α → β → m (ForInStep β)) (state : β),
            visitAll values state visit = forIn (all values) state visit := by
  obtain ⟨orderings, last, run, stuck, read⟩ := run_first values
  have enough : orderings.length ≤ factorial values.length := by
    rw [← read.length_eq, length_sweep, factorial_eq]
  have same : all values = orderings := by
    rw [all, visitAll, visitFrom_eq_forIn run stuck enough]
    simp
  rw [same]
  exact ⟨⟨last, run, stuck⟩, read, visitFrom_eq_forIn run stuck enough⟩

/-- A visitor goes over all orderings until it is done. -/
theorem visitAll_eq_forIn [Monad m] (values : List α) (state : β)
    (visit : List α → β → m (ForInStep β)) :
    visitAll values state visit = forIn (all values) state visit :=
  (all_spec values).2.2 visit state

/-- Orderings that are collected are those visited. -/
theorem eq_all_of_collect {values : List α} {listed : List (List α)}
    (collected : collect values = .ok listed) : listed = all values := by
  unfold collect at collected
  split at collected
  · cases collected
  · cases collected
    rfl

end CellMachine.Arrangement
