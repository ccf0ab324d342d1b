import Autotype.Store.Geometry

/-!
# Media

A medium is what the store is written on: addressable cells of one byte that survive, and a flush that
makes pending writes last. `LawfulMedium` says what the store relies on, and no more: a cell inside the
store keeps what was written to it, other cells keep what they had, and a flush changes no cell. Cells
from the reported capacity on, or outside the store, are never touched.
-/

namespace Autotype

/-- Cells of one byte that the store can be kept in. -/
class Medium (μ : Type) where
  capacity : μ → Nat
  read : μ → Nat → UInt8
  /-- The medium after a cell was given a new content. -/
  write : μ → Nat → UInt8 → μ
  /-- The medium after pending writes were made to last. -/
  flush : μ → μ

/-- The number of cells of a medium that the store uses. -/
def Medium.size {μ : Type} [Medium μ] (m : μ) : Nat :=
  min (capacity m) storeSize

/-- A medium whose usable cells keep what is written to them. -/
class LawfulMedium (μ : Type) [Medium μ] : Prop where
  read_write_self : ∀ (m : μ) (a : Nat) (v : UInt8), a < Medium.size m →
    Medium.read (Medium.write m a v) a = v
  read_write_of_ne : ∀ (m : μ) (a b : Nat) (v : UInt8), a < Medium.size m → a ≠ b →
    Medium.read (Medium.write m a v) b = Medium.read m b
  capacity_write : ∀ (m : μ) (a : Nat) (v : UInt8),
    Medium.capacity (Medium.write m a v) = Medium.capacity m
  read_flush : ∀ (m : μ) (a : Nat), Medium.read (Medium.flush m) a = Medium.read m a
  capacity_flush : ∀ m : μ, Medium.capacity (Medium.flush m) = Medium.capacity m

end Autotype
