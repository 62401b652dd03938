import CellMachine.Proofs.Instruction.Decode

/-! # Cells by their integer addresses

Addresses are cells, and the sum of an address and a distance wraps. Seen over the integers, a
memory is a partial function of addresses, from which a read takes its value, at which a write
changes one place, and for which no sum wraps.
-/

namespace CellMachine

namespace Memory

theorem contains_iff {m : Memory} {address : Cell} :
    m.Contains address ↔ 0 ≤ address.toInt ∧ address.toInt < m.size := by
  have clamped : address.toNatClampNeg = address.toInt.toNat := rfl
  rw [Contains, Int64.le_iff_toInt_le, Int64.toInt_zero, clamped, ← size]
  omega

/-- The value at an integer address, if there is one. No cell holds an address beyond the range of
cells, so there is nothing to be found there, however long the memory. -/
def cell? (m : Memory) (address : Int) : Option Cell :=
  if 0 ≤ address ∧ Cell.Representable address then m.toList[address.toNat]? else none

theorem toOption_read (m : Memory) (address : Cell) :
    (m.read address).toOption = m.cell? address.toInt := by
  have low := address.le_toInt
  have high := address.toInt_lt
  have nonneg : 0 ≤ address ↔ 0 ≤ address.toInt := Int64.le_iff_toInt_le
  unfold read cell?
  split
  · next inside =>
    have bound : address.toInt.toNat < m.toList.length := inside.2
    rw [if_pos ⟨nonneg.mp inside.1, by unfold Cell.Representable; omega⟩,
      List.getElem?_eq_getElem bound]
    rfl
  · next outside =>
    symm
    split
    · next inside =>
      refine List.getElem?_eq_none (Nat.le_of_not_lt fun bound => ?_)
      exact outside ⟨nonneg.mpr inside.1, bound⟩
    · rfl

theorem cell?_of_read {m : Memory} {address value : Cell} (found : m.read address = .ok value) :
    m.cell? address.toInt = some value := by
  rw [← toOption_read, found]
  rfl

theorem cell?_of_unread {m : Memory} {address : Cell} {f : Failure}
    (unread : m.read address = .error f) : m.cell? address.toInt = none := by
  rw [← toOption_read, unread]
  rfl

/-- Where an address wraps, neither the sum of cells nor the sum of integers is an address. -/
theorem cell?_add (m : Memory) (pc : Cell) {distance : Cell} (forward : 0 ≤ distance.toInt) :
    m.cell? (pc + distance).toInt = m.cell? (pc.toInt + distance.toInt) := by
  have low := pc.le_toInt
  have high := pc.toInt_lt
  have bound := distance.toInt_lt
  rw [Int64.toInt_add]
  by_cases fits : pc.toInt + distance.toInt < 2 ^ 63
  · rw [Int.bmod_eq_of_le (by omega) (by omega)]
  · have wrapped : (pc.toInt + distance.toInt).bmod (2 ^ 64) < 0 := by
      rw [Int.bmod_def]
      split <;> omega
    unfold cell? Cell.Representable
    rw [if_neg (by omega), if_neg (by omega)]

theorem lt_size_of_isSome {m : Memory} {address : Int} (present : (m.cell? address).isSome) :
    0 ≤ address ∧ address < m.size := by
  unfold cell? at present
  split at present
  · next inside =>
    have bound : address.toNat < m.toList.length := by simpa using present
    have length : m.toList.length = m.size := Array.length_toList
    omega
  · cases present

theorem read_cases (m : Memory) (address : Cell) :
    (∃ value, m.read address = .ok value ∧ m.cell? address.toInt = some value) ∨
      ∃ f, m.read address = .error f ∧ f.cause = .addressOutOfBounds ∧
        m.cell? address.toInt = none := by
  cases found : m.read address with
  | ok value => exact .inl ⟨value, rfl, cell?_of_read found⟩
  | error f => exact .inr ⟨f, rfl, read_cause found, cell?_of_unread found⟩

/-- A read at a distance from an address, over the integers. -/
theorem read_add_cases (m : Memory) (pc : Cell) {distance : Cell} {n : Nat}
    (forward : distance.toInt = n) :
    (∃ value, m.read (pc + distance) = .ok value ∧ m.cell? (pc.toInt + n) = some value) ∨
      ∃ f, m.read (pc + distance) = .error f ∧ f.cause = .addressOutOfBounds ∧
        m.cell? (pc.toInt + n) = none := by
  have cases := m.read_cases (pc + distance)
  rw [m.cell?_add pc (by omega), forward] at cases
  exact cases

/-- A sum that is the address of a cell has not wrapped. -/
theorem toInt_add_of_isSome {m : Memory} {pc distance : Cell}
    (present : (m.cell? (pc.toInt + distance.toInt)).isSome) :
    (pc + distance).toInt = pc.toInt + distance.toInt := by
  unfold cell? Cell.Representable at present
  split at present
  · next inside =>
    rw [Int64.toInt_add]
    exact Int.bmod_eq_of_le (by omega) (by omega)
  · cases present

/-- There is a cell to write to wherever there is one to read. -/
theorem exists_write {m : Memory} {address : Cell} (present : (m.cell? address.toInt).isSome)
    (value : Cell) : ∃ written, m.write address value = .ok written := by
  rw [← toOption_read] at present
  by_cases inside : m.Contains address
  · exact ⟨_, dif_pos inside⟩
  · rw [read, dif_neg inside] at present
    cases present

theorem isSome_of_write {m written : Memory} {address value : Cell}
    (stored : m.write address value = .ok written) : (m.cell? address.toInt).isSome := by
  unfold write at stored
  split at stored
  · next inside =>
    rw [← toOption_read, read, dif_pos inside]
    rfl
  · cases stored

/-- A write changes the cell at its address and no other. -/
theorem cell?_write {m written : Memory} {address value : Cell}
    (stored : m.write address value = .ok written) (n : Int) :
    written.cell? n = if n = address.toInt then some value else m.cell? n := by
  unfold write at stored
  split at stored
  · next inside =>
    cases stored
    have low : 0 ≤ address.toInt := Int64.le_iff_toInt_le.mp inside.1
    have high := address.toInt_lt
    have bound : address.toInt.toNat < m.toList.length := inside.2
    have cells : toList ⟨m.cells.set address.toNatClampNeg value inside.2⟩ =
        m.toList.set address.toInt.toNat value :=
      m.cells.toList_set _ value inside.2
    simp only [cell?, cells]
    by_cases here : n = address.toInt
    · subst here
      rw [if_pos rfl, List.getElem?_set_self bound, if_pos]
      exact ⟨low, by unfold Cell.Representable; omega⟩
    · rw [if_neg here]
      split
      · rw [List.getElem?_set_ne (by omega)]
      · rfl
  · cases stored

end Memory

end CellMachine
