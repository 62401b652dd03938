import CellMachine.Computer

/-! # Steady answers

What may run for ever is given a budget, and the answer `none` says that the budget was too small.
An answer is steady when a larger budget never changes it. Steady answers are put together step by
step: a part that is given the same budget may follow on what came before it.
-/

namespace CellMachine

variable {α β : Type}

/-- Larger budgets never change an answer. -/
def Steady (f : Nat → Option α) : Prop :=
  ∀ ⦃budget larger : Nat⦄ ⦃answer : α⦄, budget ≤ larger → f budget = some answer →
    f larger = some answer

namespace Steady

variable {f : Nat → Option α}

/-- What needs no budget is steady. -/
theorem const (answer : Option α) : Steady fun _ => answer :=
  fun _ _ _ _ given => given

theorem bind {g : α → Nat → Option β} (first : Steady f) (second : ∀ a, Steady (g a)) :
    Steady fun budget => (f budget).bind fun a => g a budget := by
  intro budget larger answer le given
  obtain ⟨a, found, given⟩ := Option.bind_eq_some_iff.mp given
  exact Option.bind_eq_some_iff.mpr ⟨a, first le found, second a le given⟩

theorem map (first : Steady f) (g : α → β) : Steady fun budget => (f budget).map g := by
  intro budget larger answer le given
  obtain ⟨a, found, rfl⟩ := Option.map_eq_some_iff.mp given
  exact Option.map_eq_some_iff.mpr ⟨a, first le found, rfl⟩

/-- All budgets that are large enough give the same answer. -/
theorem unique (steady : Steady f) {budget other : Nat} {a b : α} (given : f budget = some a)
    (givenToo : f other = some b) : a = b :=
  Option.some.inj ((steady (Nat.le_max_left budget other) given).symm.trans
    (steady (Nat.le_max_right budget other) givenToo))

end Steady

theorem Computer.steady_execute (computer : Computer) (input : Option Cell) :
    Steady fun budget => computer.execute budget input := by
  have machine : Steady fun budget => computer.machine.execute budget input :=
    fun _ _ _ le stops => Machine.execute_mono le stops
  exact machine.map _

theorem Computer.steady_resume (computer : Computer) (value : Cell) :
    Steady fun budget => computer.resume budget value :=
  computer.steady_execute (some value)

end CellMachine
