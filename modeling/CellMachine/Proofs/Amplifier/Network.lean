import Mathlib.Algebra.Group.Fin.Basic
import Mathlib.Algebra.Ring.Nat
import Mathlib.Logic.Equiv.Fin.Rotate
import Mathlib.Logic.Relation
import CellMachine.Amplifier.Ring
import CellMachine.Proofs.Machine.Steady

/-! # Networks of amplifiers

Without turns, the amplifiers of a ring are a network: each has a queue of signals, any one that
waits and whose queue is not empty may be fed the first signal of the queue, and what it puts out
goes to the queue of the next at once. A signal is taken from the front of a queue and added at its
back, and only one amplifier does either, so two different amplifiers may be fed in any order. All
ways of going on from a state can therefore be brought together again, and an amplifier that halts
in two of them has put out the same values in both.
-/

namespace CellMachine.Amplifier

/-- An amplifier of a network. Its output is sent off at once. -/
inductive Node where
  | waiting (computer : Computer)
  | halted

def Node.ofTurn (turn : Turn) : Option (Node × List Cell) :=
  match turn.status with
  | .ok .awaiting => some (.waiting turn.computer.takeOutput.2, turn.computer.takeOutput.1)
  | .ok (.halted output) => some (.halted, output)
  | .error _ => none

/-- A network of amplifiers numbered from zero to `last`. -/
structure Network (last : Nat) where
  nodes : Fin (last + 1) → Node
  /-- The signals sent to each amplifier that it has not been fed. -/
  queues : Fin (last + 1) → List Cell
  /-- The values that each amplifier has put out. -/
  emitted : Fin (last + 1) → List Cell

namespace Network

open Relation

variable {last : Nat}

def fire (s : Network last) (k : Fin (last + 1)) (rest : List Cell) (node : Node)
    (output : List Cell) : Network last where
  nodes := Function.update s.nodes k node
  queues j := (if j = k then rest else s.queues j) ++
    if j = finRotate (last + 1) k then output else []
  emitted := Function.update s.emitted k (s.emitted k ++ output)

/-- Some amplifier that waits is fed the first signal of its queue and does not fail. -/
inductive Step (s : Network last) : Network last → Prop
  | feed {k : Fin (last + 1)} {computer : Computer} {signal : Cell} {rest : List Cell}
      {budget : Nat} {turn : Turn} {node : Node} {output : List Cell}
      (waiting : s.nodes k = .waiting computer) (queued : s.queues k = signal :: rest)
      (resumed : computer.resume budget signal = some turn)
      (left : Node.ofTurn turn = some (node, output)) :
      Step s (s.fire k rest node output)

/-- Two different amplifiers may be fed in any order: each finds its own signal in front. -/
theorem fire_comm (s : Network last) {j k : Fin (last + 1)} (differ : j ≠ k)
    (restJ restK : List Cell) (nodeJ nodeK : Node) (outputJ outputK : List Cell) :
    (s.fire j restJ nodeJ outputJ).fire k (restK ++ if k = j + 1 then outputJ else [])
        nodeK outputK =
      (s.fire k restK nodeK outputK).fire j (restJ ++ if j = k + 1 then outputK else [])
        nodeJ outputJ := by
  have apart (i : Fin (last + 1)) : ¬ (i = j + 1 ∧ i = k + 1) := by
    rintro ⟨rfl, same⟩
    exact differ (add_right_cancel same)
  have moves (i : Fin (last + 1)) : i ≠ i + 1 := by
    intro same
    obtain rfl : last = 0 := by simpa using Fin.one_eq_zero_iff.mp (left_eq_add.mp same)
    exact differ (Fin.ext (by omega))
  simp only [fire, Network.mk.injEq]
  refine ⟨Function.update_comm differ .., ?_, ?_⟩
  · funext i
    by_cases atJ : i = j
    · subst atJ
      simp [differ, moves]
    · by_cases atK : i = k
      · subst atK
        simp [moves, atJ]
      · have := apart i
        by_cases afterJ : i = j + 1 <;> simp_all
  · rw [Function.update_of_ne differ, Function.update_of_ne differ.symm]
    exact Function.update_comm differ ..

/-- An amplifier that has been fed does not keep another from being fed. -/
theorem Step.feed_after {s : Network last} {j k : Fin (last + 1)} {computer : Computer}
    {signal : Cell} {rest restJ output outputJ : List Cell} {budget : Nat} {turn : Turn}
    {node nodeJ : Node} (differ : j ≠ k) (waiting : s.nodes k = .waiting computer)
    (queued : s.queues k = signal :: rest) (resumed : computer.resume budget signal = some turn)
    (left : Node.ofTurn turn = some (node, output)) :
    Step (s.fire j restJ nodeJ outputJ) ((s.fire j restJ nodeJ outputJ).fire k
      (rest ++ if k = j + 1 then outputJ else []) node output) := by
  refine .feed ?_ ?_ resumed left
  · rw [← waiting]
    exact Function.update_of_ne differ.symm ..
  · simp [fire, differ.symm, queued]

/-- Two steps from one state are the same or can be brought together by one more each. -/
theorem Step.diamond {s a b : Network last} (left : Step s a) (right : Step s b) :
    a = b ∨ ∃ c, Step a c ∧ Step b c := by
  obtain @⟨j, computer, signal, rest, _, turn, node, output, waiting, queued, resumed, left⟩ := left
  obtain @⟨k, computer', signal', rest', _, turn', node', output', waiting', queued', resumed',
    left'⟩ := right
  by_cases same : j = k
  · subst same
    cases waiting.symm.trans waiting'
    cases queued.symm.trans queued'
    cases (Computer.steady_resume computer signal).unique resumed resumed'
    cases left.symm.trans left'
    exact .inl rfl
  · refine .inr ⟨_, feed_after same waiting' queued' resumed' left', ?_⟩
    rw [fire_comm s same]
    exact feed_after (Ne.symm same) waiting queued resumed left

/-- All ways of going on from a state can be brought together again. -/
theorem confluent {s a b : Network last} (left : ReflTransGen Step s a)
    (right : ReflTransGen Step s b) : Join (ReflTransGen Step) a b := by
  refine church_rosser ?_ left right
  intro s a b left right
  obtain rfl | ⟨c, fromA, fromB⟩ := left.diamond right
  · exact ⟨a, .refl, .refl⟩
  · exact ⟨c, .single fromA, .single fromB⟩

/-- An amplifier that has halted puts nothing out any more. -/
theorem Step.of_halted {s t : Network last} {k : Fin (last + 1)} (step : Step s t)
    (halted : s.nodes k = .halted) : t.nodes k = .halted ∧ t.emitted k = s.emitted k := by
  obtain @⟨j, _, _, _, _, _, _, _, waiting, _, _, _⟩ := step
  have differ : k ≠ j := by
    rintro rfl
    cases halted.symm.trans waiting
  simp [fire, differ, halted]

private theorem of_halted {s t : Network last} {k : Fin (last + 1)} (steps : ReflTransGen Step s t)
    (halted : s.nodes k = .halted) : t.nodes k = .halted ∧ t.emitted k = s.emitted k := by
  induction steps with
  | refl => exact ⟨halted, rfl⟩
  | tail _ step ih =>
    obtain ⟨halted, same⟩ := step.of_halted ih.1
    exact ⟨halted, same.trans ih.2⟩

/-- An amplifier that halts has put out the same values whatever the order of the steps. -/
theorem emitted_unique {s a b : Network last} {k : Fin (last + 1)} (left : ReflTransGen Step s a)
    (right : ReflTransGen Step s b) (haltedLeft : a.nodes k = .halted)
    (haltedRight : b.nodes k = .halted) : a.emitted k = b.emitted k := by
  obtain ⟨c, fromA, fromB⟩ := confluent left right
  rw [← (of_halted fromA haltedLeft).2, (of_halted fromB haltedRight).2]

/-- No amplifier that waits has a signal in its queue. -/
def Settled (s : Network last) : Prop :=
  ∀ k computer, s.nodes k = .waiting computer → s.queues k = []

/-- An amplifier that has not halted when the network settles does not halt in any order of the
steps. -/
theorem Settled.not_halted {s a b : Network last} {k : Fin (last + 1)} (settled : b.Settled)
    (left : ReflTransGen Step s a) (right : ReflTransGen Step s b) (alive : b.nodes k ≠ .halted) :
    a.nodes k ≠ .halted := by
  intro halted
  obtain ⟨c, fromA, fromB⟩ := confluent left right
  obtain rfl | ⟨d, step, -⟩ := fromB.cases_head
  · exact alive (of_halted fromA halted).1
  · obtain ⟨waiting, queued, -, -⟩ := step
    cases queued.symm.trans (settled _ _ waiting)

end Network

end CellMachine.Amplifier
