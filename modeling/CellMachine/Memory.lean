import CellMachine.Failure

/-! # Memory

A memory is a row of cells whose length never changes once a machine owns it. Every access is
checked: an address outside the row is a failure and changes nothing. That there is room for only so
many cells is left out: any size that is asked for is there.
-/

namespace CellMachine

/-- A row of cells, addressed from zero. -/
structure Memory where
  cells : Array Cell := #[]
  deriving DecidableEq, Repr, Inhabited

namespace Memory

def ofList (cells : List Cell) : Memory :=
  ⟨cells.toArray⟩

def toList (m : Memory) : List Cell :=
  m.cells.toList

def size (m : Memory) : Nat :=
  m.cells.size

/-- An address is contained in a memory when it is neither negative nor past the last cell. -/
def Contains (m : Memory) (address : Cell) : Prop :=
  0 ≤ address ∧ address.toNatClampNeg < m.cells.size

@[inline]
instance (m : Memory) (address : Cell) : Decidable (m.Contains address) :=
  inferInstanceAs (Decidable (_ ∧ _))

@[inline]
def read (m : Memory) (address : Cell) : Except Failure Cell :=
  if inside : m.Contains address then
    have bound := inside.2
    .ok m.cells[address.toNatClampNeg]
  else .error (Cause.addressOutOfBounds.within (.read address m.size))

@[inline]
def write (m : Memory) (address value : Cell) : Except Failure Memory :=
  if inside : m.Contains address then
    .ok ⟨m.cells.set address.toNatClampNeg value inside.2⟩
  else .error (Cause.addressOutOfBounds.within (.write address m.size))

/-- A write keeps the number of cells. -/
theorem size_write {m written : Memory} {address value : Cell}
    (success : m.write address value = .ok written) : written.size = m.size := by
  unfold write at success
  split at success
  · cases success
    simp [size]
  · cases success

/-- The memory extended with zeros to at least the given number of cells. -/
def grow (m : Memory) (least : Cell) : Memory :=
  ⟨m.cells ++ Array.replicate (least.toNatClampNeg - m.size) 0⟩

/-- Growing keeps the cells and puts zeros behind them. -/
theorem toList_grow (m : Memory) (least : Cell) :
    (m.grow least).toList =
      m.toList ++ List.replicate (least.toNatClampNeg - m.size) 0 := by
  simp [grow, toList]

end Memory

end CellMachine
