import Mathlib.Logic.Relation
import CellMachine.Proofs.Arrangement.Visit

/-! # Visits that stop early

A visitor with a memory of its own says after each ordering whether it wants another. It is shown
the orderings one after the other, up to the first one after which it wants no more.

The visit is a loop that looks at the counter of one place at a time, and either starts it again or
makes an exchange. The visitor is asked between the exchange and the advance of the counter, so a
visit that stops early leaves a counter behind. The loop names places by their numbers, and a number
that is no place would lead it astray. It never goes astray, because no counter exceeds its place.
-/

namespace CellMachine.Arrangement

variable {α σ : Type}

/-- A visitor looks at an ordering, may remember something of it, and says whether it wants
another. -/
abbrev Visitor (α σ : Type) := List α → σ → Bool × σ

variable {visitor : Visitor α σ}

structure Shown (α σ : Type) where
  orderings : List (List α)
  memory : σ

def Shown.add (visitor : Visitor α σ) (ordering : List α) (shown : Shown α σ) :
    ForInStep (Shown α σ) :=
  match visitor ordering shown.memory with
  | (true, memory) => .yield ⟨shown.orderings ++ [ordering], memory⟩
  | (false, memory) => .done ⟨shown.orderings ++ [ordering], memory⟩

/-- What a visitor is shown of the orderings of a list. -/
def showAll (visitor : Visitor α σ) (memory : σ) (values : List α) : Shown α σ :=
  Id.run <| visitAll values ⟨[], memory⟩ fun ordering shown => pure (shown.add visitor ordering)

/-- The answers of a visitor that is shown some orderings in sequence, whatever it answers. -/
def answers (visitor : Visitor α σ) : σ → List (List α) → List Bool
  | _, [] => []
  | memory, ordering :: rest =>
    (visitor ordering memory).1 :: answers visitor (visitor ordering memory).2 rest

def showEach (visitor : Visitor α σ) : List (List α) → Shown α σ → Shown α σ
  | [], shown => shown
  | ordering :: rest, shown =>
    match shown.add visitor ordering with
    | .done shown => shown
    | .yield shown => showEach visitor rest shown

private theorem forIn_eq_showEach (orderings : List (List α)) (shown : Shown α σ) :
    Id.run (forIn orderings shown fun ordering shown => pure (shown.add visitor ordering)) =
      showEach visitor orderings shown := by
  induction orderings generalizing shown with
  | nil => rfl
  | cons ordering rest ih =>
    rw [List.forIn_cons, showEach]
    cases added : shown.add visitor ordering with
    | done shown => simp
    | yield shown => simpa using ih shown

private theorem showAll_eq (visitor : Visitor α σ) (memory : σ) (values : List α) :
    showAll visitor memory values = showEach visitor (all values) ⟨[], memory⟩ := by
  rw [showAll, visitAll_eq_forIn, forIn_eq_showEach]

/-- A visitor is shown a list up to the first ordering after which it wants no more. -/
theorem orderings_showEach (orderings : List (List α)) (shown : Shown α σ) :
    (showEach visitor orderings shown).orderings = shown.orderings ++
      orderings.take ((answers visitor shown.memory orderings).idxOf false + 1) := by
  induction orderings generalizing shown with
  | nil => simp [showEach]
  | cons ordering rest ih =>
    rw [showEach, Shown.add, answers]
    obtain ⟨wants, memory⟩ := visitor ordering shown.memory
    cases wants with
    | false => simp
    | true => simp [ih, List.idxOf_cons_ne]

/-! ## The loop -/

/-- The loop behind a visit, with the place whose counter is looked at next. -/
structure Loop (α σ : Type) extends Arrangement α where
  place : Nat
  shown : Shown α σ
  /-- The visitor wants no more. -/
  stopped : Bool

inductive Turn (α σ : Type) where
  | next (loop : Loop α σ)
  | ended
  /-- A number was taken for a place and is none. -/
  | astray

/-- Exchanges the values at two places, if there are such places. -/
def exchange? (values : Array α) (i j : Nat) : Option (Array α) :=
  if inside : i < values.size ∧ j < values.size then
    some (values.swap i j inside.1 inside.2)
  else none

namespace Loop

def turn (visitor : Visitor α σ) (l : Loop α σ) : Turn α σ :=
  if l.stopped ∨ l.values.size ≤ l.place then .ended
  else match l.counters[l.place]? with
    | none => .astray
    | some counter =>
      if counter < l.place then
        match exchange? l.values (Exchange.mk l.place counter).partner l.place with
        | none => .astray
        | some values =>
          match l.shown.add visitor values.toList with
          | .done shown => .next { l with values, shown, stopped := true }
          | .yield shown =>
            let counters := l.counters.set l.place (counter + 1)
            .next { l with values, shown, counters, place := 1 }
      else .next { l with counters := l.counters.set l.place 0, place := l.place + 1 }

/-- The loop before its first turn: the visitor has been shown the values as they are given. -/
def start (visitor : Visitor α σ) (memory : σ) (values : List α) : Loop α σ :=
  match (Shown.mk [] memory).add visitor values with
  | .done shown => ⟨first values, 1, shown, true⟩
  | .yield shown => ⟨first values, 1, shown, false⟩

def Reaches (visitor : Visitor α σ) : Loop α σ → Loop α σ → Prop :=
  Relation.ReflTransGen fun l m => l.turn visitor = .next m

end Loop

/-- There is a counter for each place, and none exceeds its place. -/
structure Counted (a : Arrangement α) : Prop where
  length : a.counters.length = a.values.size
  le : ∀ place counter : ℕ, a.counters[place]? = some counter → counter ≤ place

private theorem counted_first (values : List α) : (first values).Counted where
  length := by simp [first]
  le place counter found := by
    simp only [first, List.getElem?_map, Option.map_eq_some_iff] at found
    obtain ⟨_, -, rfl⟩ := found
    exact Nat.zero_le place

theorem Counted.set {a : Arrangement α} (counted : a.Counted) {place counter : ℕ}
    (le : counter ≤ place) {values : Array α} (size : values.size = a.values.size) :
    Counted ⟨values, a.counters.set place counter⟩ where
  length := by
    rw [List.length_set, counted.length, size]
  le other found there := by
    rw [List.getElem?_set] at there
    split_ifs at there with same
    · cases there
      omega
    · exact counted.le other found there

/-- The place with which an exchange is made lies below. -/
theorem Exchange.partner_lt {e : Exchange} (lt : e.counter < e.place) : e.partner < e.place := by
  unfold partner
  split_ifs <;> omega

private theorem exchange?_of_lt {values : Array α} {i j : ℕ} (iBelow : i < values.size)
    (jBelow : j < values.size) : exchange? values i j = some (values.swapIfInBounds i j) := by
  rw [exchange?, dif_pos ⟨iBelow, jBelow⟩, Array.swapIfInBounds, dif_pos iBelow, dif_pos jBelow]

namespace Loop

variable {l m : Loop α σ} {counter : ℕ}

private theorem toArrangement_start (visitor : Visitor α σ) (memory : σ) (values : List α) :
    (start visitor memory values).toArrangement = first values := by
  unfold start
  split <;> rfl

private theorem turn_of_spent (visitor : Visitor α σ) (going : l.stopped = false)
    (inside : l.place < l.values.size) (found : l.counters[l.place]? = some counter)
    (spent : l.place ≤ counter) :
    l.turn visitor =
      .next { l with counters := l.counters.set l.place 0, place := l.place + 1 } := by
  rw [turn, if_neg (by simp [going, inside])]
  simp only [found, if_neg (Nat.not_lt.mpr spent)]

private theorem turn_of_lt (visitor : Visitor α σ) (going : l.stopped = false)
    (inside : l.place < l.values.size) (found : l.counters[l.place]? = some counter)
    (lt : counter < l.place) :
    l.turn visitor =
      let values := l.values.swapIfInBounds (Exchange.mk l.place counter).partner l.place
      match l.shown.add visitor values.toList with
      | .done shown => .next { l with values, shown, stopped := true }
      | .yield shown =>
        let counters := l.counters.set l.place (counter + 1)
        .next { l with values, shown, counters, place := 1 } := by
  have partner : (Exchange.mk l.place counter).partner < l.values.size :=
    (Exchange.partner_lt lt).trans inside
  rw [turn, if_neg (by simp [going, inside])]
  simp only [found, if_pos lt, exchange?_of_lt partner inside]

/-- A turn does not go astray and leaves no counter above its place. -/
theorem turn_cases (visitor : Visitor α σ) (counted : l.Counted) :
    l.turn visitor = .ended ∨
      ∃ m, l.turn visitor = .next m ∧ m.Counted ∧ m.values.size = l.values.size := by
  by_cases finished : l.stopped ∨ l.values.size ≤ l.place
  · exact .inl (if_pos finished)
  · obtain ⟨going, inside⟩ : l.stopped = false ∧ l.place < l.values.size := by simpa using finished
    obtain ⟨counter, found⟩ : ∃ counter, l.counters[l.place]? = some counter :=
      ⟨_, List.getElem?_eq_getElem (counted.length ▸ inside)⟩
    right
    rcases Nat.lt_or_ge counter l.place with lt | spent
    · rw [turn_of_lt visitor going inside found lt]
      dsimp only
      split
      · exact ⟨_, rfl, ⟨by simpa using counted.length, counted.le⟩, by simp⟩
      · exact ⟨_, rfl, counted.set lt (by simp), by simp⟩
    · refine ⟨_, turn_of_spent visitor going inside found spent, ?_, rfl⟩
      exact counted.set (Nat.zero_le _) rfl

/-- No counter exceeds its place in the whole run of a loop. -/
theorem Reaches.counted (reached : Reaches visitor l m) (counted : l.Counted) :
    m.Counted ∧ m.values.size = l.values.size := by
  induction reached with
  | refl => exact ⟨counted, rfl⟩
  | tail _ turned ih =>
    obtain ended | ⟨next, turnedToo, kept, size⟩ := turn_cases visitor ih.1
    · cases turned.symm.trans ended
    · cases turned.symm.trans turnedToo
      exact ⟨kept, size.trans ih.2⟩

/-! ## The loop and the visit -/

variable {values : Array α}

theorem Reaches.head {n : Loop α σ} (turned : l.turn visitor = .next m)
    (rest : Reaches visitor m n) : Reaches visitor l n :=
  Relation.ReflTransGen.head turned rest

/-- The loop starts the counters again that have run out, up to the one that the tick finds. If
there is none, it goes past the last place. -/
theorem reaches_tick (visitor : Visitor α σ) (shown : Shown α σ) (front rest : List ℕ)
    (length : (front ++ rest).length = values.size) :
    (tick front.length rest = none ∧ ∃ counters,
      Reaches visitor ⟨⟨values, front ++ rest⟩, front.length, shown, false⟩
        ⟨⟨values, counters⟩, values.size, shown, false⟩) ∨
    ∃ e after, tick front.length rest = some (e, after) ∧ e.counter < e.place ∧
      e.place < values.size ∧ ∃ counters,
        Reaches visitor ⟨⟨values, front ++ rest⟩, front.length, shown, false⟩
          ⟨⟨values, counters⟩, e.place, shown, false⟩ ∧
        counters[e.place]? = some e.counter ∧
        counters.set e.place (e.counter + 1) = front ++ after := by
  induction rest generalizing front with
  | nil =>
    have size : front.length = values.size := by simpa using length
    exact .inl ⟨rfl, front ++ [], size ▸ .refl⟩
  | cons counter rest ih =>
    have inside : front.length < values.size := by
      rw [← length, List.length_append, List.length_cons]
      omega
    have found : (front ++ counter :: rest)[front.length]? = some counter := by simp
    rcases Nat.lt_or_ge counter front.length with lt | spent
    · exact .inr ⟨_, _, if_pos lt, lt, inside, _, .refl, found, by simp⟩
    · -- The counter starts again, and belongs to the front from now on.
      have turned := turn_of_spent visitor
        (l := ⟨⟨values, front ++ counter :: rest⟩, front.length, shown, false⟩)
        rfl inside found spent
      simp only [List.set_append_right, Nat.le_refl, Nat.sub_self, List.set_cons_zero] at turned
      specialize ih (front ++ [0]) (by simpa using length)
      simp only [List.length_append, List.length_singleton, List.append_assoc,
        List.singleton_append] at ih
      rw [tick, if_neg (Nat.not_lt.mpr spent)]
      obtain ⟨ticked, counters, reached⟩ |
        ⟨e, after, ticked, lt, below, counters, reached, here, advanced⟩ := ih
      · exact .inl ⟨by rw [ticked], counters, reached.head turned⟩
      · exact .inr ⟨e, 0 :: after, by rw [ticked], lt, below, counters, reached.head turned, here,
          advanced⟩

variable {a : Arrangement α}

/-- From one arrangement the loop comes to the exchange that leads to the next, or past the last
place if there is no next. -/
theorem reaches_exchange (visitor : Visitor α σ) (shown : Shown α σ) (counted : a.Counted) :
    (a.next? = none ∧ ∃ counters place, a.values.size ≤ place ∧
      Reaches visitor ⟨a, 1, shown, false⟩ ⟨⟨a.values, counters⟩, place, shown, false⟩) ∨
    ∃ (e : Exchange) (counters : List ℕ),
      a.next? = some ⟨a.values.swapIfInBounds e.partner e.place,
        counters.set e.place (e.counter + 1)⟩ ∧
      e.counter < e.place ∧ e.place < a.values.size ∧ counters[e.place]? = some e.counter ∧
      Reaches visitor ⟨a, 1, shown, false⟩ ⟨⟨a.values, counters⟩, e.place, shown, false⟩ := by
  obtain ⟨values, _ | ⟨counter, rest⟩⟩ := a
  · have empty : values.size = 0 := counted.length.symm
    exact .inl ⟨rfl, [], 1, empty.trans_le (Nat.zero_le 1), .refl⟩
  · -- The counter of the first place has always run out, so the loop may begin with the second.
    obtain rfl : counter = 0 := Nat.le_zero.mp (counted.le 0 counter rfl)
    obtain ⟨ticked, counters, reached⟩ |
      ⟨e, after, ticked, lt, below, counters, reached, here, advanced⟩ :=
        reaches_tick visitor shown [0] rest counted.length
    · exact .inl ⟨by simp_all [next?, tick], counters, _, le_rfl, reached⟩
    · exact .inr ⟨e, counters, by simp_all [next?, tick], lt, below, here, reached⟩

/-- A loop whose visitor has been shown the first ordering of a run shows it the others. -/
theorem reaches_of_run (visitor : Visitor α σ) (shown : Shown α σ) {last : Arrangement α}
    {orderings : List (List α)} (run : Run a orderings last) (final : last.next? = none)
    (counted : a.Counted) :
    ∃ l, Reaches visitor ⟨a, 1, shown, false⟩ l ∧ l.turn visitor = .ended ∧
      l.shown = showEach visitor orderings.tail shown := by
  induction run generalizing shown with
  | last a =>
    obtain ⟨-, counters, place, past, reached⟩ | ⟨_, _, step, -⟩ :=
      reaches_exchange visitor shown counted
    · exact ⟨_, reached, if_pos (.inr past), rfl⟩
    · cases final.symm.trans step
  | @next a b last orderings step rest ih =>
    obtain ⟨none, -⟩ | ⟨e, counters, stepToo, lt, below, here, reached⟩ :=
      reaches_exchange visitor shown counted
    · cases step.symm.trans none
    cases step.symm.trans stepToo
    obtain ⟨others, rfl⟩ : ∃ others, orderings = _ :: others := by
      cases rest <;> exact ⟨_, rfl⟩
    have turned := turn_of_lt visitor
      (l := ⟨⟨a.values, counters⟩, e.place, shown, false⟩) rfl below here lt
    dsimp only at turned
    rw [List.tail_cons, showEach]
    split at turned
    · next stopped =>
      rw [stopped]
      exact ⟨_, reached.tail turned, if_pos (.inl rfl), rfl⟩
    · next goesOn =>
      have onward := reached.tail turned
      obtain ⟨l, further, ended, same⟩ := ih _ final (Reaches.counted onward counted).1
      rw [goesOn]
      exact ⟨l, onward.trans further, ended, same⟩

/-- The loop ends, and has shown to the visitor what the visit shows it. -/
theorem exists_ended (visitor : Visitor α σ) (memory : σ) (values : List α) :
    ∃ l, Reaches visitor (start visitor memory values) l ∧ l.turn visitor = .ended ∧
      l.shown = showAll visitor memory values := by
  obtain ⟨last, run, final⟩ := (all_spec values).1
  obtain ⟨others, same⟩ : ∃ others, all values = values :: others := by
    generalize all values = orderings at run
    cases run <;> exact ⟨_, rfl⟩
  rw [showAll_eq, same, showEach, start]
  cases (Shown.mk [] memory).add visitor values with
  | done shown => exact ⟨_, .refl, if_pos (.inl rfl), rfl⟩
  | yield shown =>
    have ended := reaches_of_run visitor shown run final (counted_first values)
    rwa [same] at ended

end Loop

/-- A visitor is shown the orderings of a list in their order, up to the first one after which it
wants no more, or all of them if it always wants another. These are the first of the orderings that
are collected, where they are. The loop ends and has shown it just these. In all its turns there is
a counter for each place, none exceeds its place, and the loop does not take a number for a place
that is none. -/
theorem visit_until_refused (visitor : Visitor α σ) (memory : σ) (values : List α) :
    (showAll visitor memory values).orderings =
        (all values).take ((answers visitor memory (all values)).idxOf false + 1) ∧
      (∀ listed, collect values = .ok listed → (showAll visitor memory values).orderings =
        listed.take ((answers visitor memory listed).idxOf false + 1)) ∧
      (∃ l, Loop.Reaches visitor (Loop.start visitor memory values) l ∧
        l.turn visitor = .ended ∧ l.shown = showAll visitor memory values) ∧
      ∀ l, Loop.Reaches visitor (Loop.start visitor memory values) l →
        l.values.size = values.length ∧ l.counters.length = values.length ∧
        (∀ place counter : ℕ, l.counters[place]? = some counter → counter ≤ place) ∧
        l.turn visitor ≠ .astray := by
  have shown : (showAll visitor memory values).orderings =
      (all values).take ((answers visitor memory (all values)).idxOf false + 1) := by
    rw [showAll_eq, orderings_showEach]
    rfl
  refine ⟨shown, fun listed collected => ?_, Loop.exists_ended visitor memory values,
    fun l reached => ?_⟩
  · rw [eq_all_of_collect collected, shown]
  · have begun := counted_first values
    rw [← Loop.toArrangement_start visitor memory values] at begun
    obtain ⟨counted, kept⟩ := reached.counted begun
    have size : l.values.size = values.length := by
      rw [kept, Loop.toArrangement_start]
      exact List.size_toArray
    refine ⟨size, counted.length.trans size, counted.le, ?_⟩
    obtain ended | ⟨m, turned, -⟩ := Loop.turn_cases visitor counted
    · rw [ended]
      nofun
    · rw [turned]
      nofun

/-- A visitor that wants three orderings. -/
theorem visit_until_refused_third :
    (showAll (fun _ (seen : ℕ) => (seen < 2, seen + 1)) 0 [1, 2, 3]).orderings =
      [[1, 2, 3], [2, 1, 3], [3, 1, 2]] := by
  rw [(visit_until_refused _ 0 [1, 2, 3]).1]
  decide

end CellMachine.Arrangement
