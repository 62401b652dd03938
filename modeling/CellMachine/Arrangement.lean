import CellMachine.Failure

/-! # Arrangements

All orderings of a list are visited one after the other, each obtained from the one before by a
single exchange of two places. A row of counters, one per place, says which exchange comes next:
the counter of place `i` runs from `0` to `i`, and the lowest place whose counter has not run out
is exchanged with the first place when `i` is even, and with the place that its counter names when
`i` is odd. Orderings are told apart by place and not by value, so a list with repeated values has
repeated orderings.

Orderings that are collected have room made for them beforehand. Only a negative amount of room is
refused here; that storage is not endless is left out.
-/

namespace CellMachine

/-- An ordering of some values, and the counters from which the next one is found. -/
structure Arrangement (α : Type) where
  values : Array α
  counters : List Nat
  deriving Repr

namespace Arrangement

variable {α σ : Type} {m : Type → Type}

/-- The place to exchange next, with its counter. -/
structure Exchange where
  place : Nat
  counter : Nat
  deriving DecidableEq, Repr

namespace Exchange

def partner (e : Exchange) : Nat :=
  if e.place % 2 = 0 then 0 else e.counter

end Exchange

/-- Advances the counters of the places from `place` on: those that have run out start again at
zero, up to the first that has not, which is the one to exchange. There is none after the last
ordering. -/
def tick : (place : Nat) → List Nat → Option (Exchange × List Nat)
  | _, [] => none
  | place, counter :: rest =>
    if counter < place then some (⟨place, counter⟩, (counter + 1) :: rest)
    else match tick (place + 1) rest with
      | some (exchange, rest) => some (exchange, 0 :: rest)
      | none => none

/-- The arrangement that comes first: the values as they are given. -/
def first (values : List α) : Arrangement α :=
  ⟨values.toArray, values.map fun _ => 0⟩

def next? (a : Arrangement α) : Option (Arrangement α) :=
  match tick 0 a.counters with
  | some (e, counters) => some ⟨a.values.swapIfInBounds e.partner e.place, counters⟩
  | none => none

def factorial : Nat → Nat
  | 0 => 1
  | n + 1 => (n + 1) * factorial n

/-- Visits at most `limit` arrangements, from the given one on, until the visitor is done. -/
@[specialize]
def visitFrom [Monad m] (visit : List α → σ → m (ForInStep σ)) :
    (limit : Nat) → Arrangement α → σ → m σ
  | 0, _, state => pure state
  | limit + 1, a, state => do
    match ← visit a.values.toList state with
    | .done state => pure state
    | .yield state =>
      match a.next? with
      | some a => visitFrom visit limit a state
      | none => pure state

@[inline]
def visitAll [Monad m] (values : List α) (state : σ) (visit : List α → σ → m (ForInStep σ)) :
    m σ :=
  visitFrom visit (factorial values.length) (first values) state

/-- All orderings of a list, in the order in which they are visited. -/
def all (values : List α) : List (List α) :=
  let visited := Id.run <| visitAll values #[] fun ordering (visited : Array (List α)) =>
    pure (.yield (visited.push ordering))
  visited.toList

/-- The orderings seen by a visitor that is done with call number `last`, counted from one. -/
def upTo (last : Int) (values : List α) : List (List α) :=
  let visited := Id.run <| visitAll values #[] fun ordering (visited : Array (List α)) =>
    let visited := visited.push ordering
    pure (if visited.size = last then .done visited else .yield visited)
  visited.toList

/-- The product of the cells from `n` down to two, with wrapping, times the one given. -/
def countFrom : (n : Nat) → Cell → Cell
  | 0, product | 1, product => product
  | n + 2, product => countFrom (n + 1) (product * Int64.ofNat (n + 2))

/-- The number of orderings of `n` places, as a cell. -/
def count (n : Cell) : Cell :=
  countFrom n.toNatClampNeg 1

/-- All orderings of a list, in room that is made for as many as they are counted to be. The count
wraps, and where it is negative there is no such room and no ordering is visited. -/
def collect (values : List α) : Except Failure (List (List α)) :=
  if count (Int64.ofNat values.length) < 0 then .error { cause := .capacityOutOfRange }
  else .ok (all values)

end Arrangement

end CellMachine
