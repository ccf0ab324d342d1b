import Autotype.Store.Geometry
import Autotype.Word

/-!
# Blocks of cells

A block of cells is a vector of bytes that is erased at first. `Cells.load` lays bytes over the start of
a block, and `Cells.written` is the content of a block up to the last cell that is not erased.
-/

namespace Autotype

/-- A block of cells. -/
abbrev Cells (n : Nat) := Vector UInt8 n

namespace Cells

/-- A block whose cells are all erased. -/
def blank (n : Nat) : Cells n :=
  .replicate n erased

/-- The block with the given bytes laid over its first cells; bytes beyond its end are left out. -/
def load {n : Nat} (cells : Cells n) (bytes : Bytes) : Cells n :=
  let source := bytes.toArray
  .ofFn fun i => if h : i.val < source.size then source[i.val] else cells[i.val]

/-- The content of a block without the erased cells at its end. -/
def written {n : Nat} (cells : Cells n) : Bytes :=
  (cells.toList.reverse.dropWhile (· == erased)).reverse

end Cells

end Autotype
