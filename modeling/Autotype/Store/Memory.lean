import Autotype.Store.Cells
import Autotype.Store.Medium

/-!
# Memory cells as a medium

The simplest medium keeps its cells in working memory. It counts the writes and flushes that reach it,
so that wear can be talked about, and it may report a capacity that is smaller or larger than its cells.
-/

namespace Autotype

/-- Cells in working memory, with a record of how often they were used. -/
structure Memory where
  cells : Cells storeSize := .blank storeSize
  /-- The capacity the memory reports. -/
  capacity : Nat := storeSize
  writes : Nat := 0
  flushes : Nat := 0
  deriving DecidableEq

namespace Memory

/-- The content of a cell; outside the memory there is nothing but erased cells. -/
def read (m : Memory) (a : Nat) : UInt8 :=
  if h : a < storeSize then m.cells[a] else erased

/-- Gives a cell a new content; a write outside the memory is counted and changes nothing. -/
def write (m : Memory) (a : Nat) (v : UInt8) : Memory :=
  { m with cells := m.cells.setIfInBounds a v, writes := m.writes + 1 }

/-- Counts a flush; the cells need none. -/
def flush (m : Memory) : Memory :=
  { m with flushes := m.flushes + 1 }

instance : Medium Memory where
  capacity := Memory.capacity
  read := Memory.read
  write := Memory.write
  flush := Memory.flush

instance : LawfulMedium Memory where
  read_write_self m a v h := by
    have inside : a < storeSize := Nat.lt_of_lt_of_le h (Nat.min_le_right _ _)
    simp [Medium.read, Medium.write, Memory.read, Memory.write, inside]
  read_write_of_ne m a b v _ hne := by
    simp only [Medium.read, Medium.write, Memory.read, Memory.write]
    split
    · simp [hne]
    · rfl
  capacity_write _ _ _ := rfl
  read_flush _ _ := rfl
  capacity_flush _ := rfl

end Memory

end Autotype
