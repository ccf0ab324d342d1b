import Autotype.Store.Cells
import Autotype.Store.Medium

/-!
# The store in flash

On the device the store lives in the last sector of the flash chip. A sector can only be erased as a
whole and programming can only clear bits, so the store is kept as an image in working memory and a flush
erases the sector and programs the whole image; a flush with nothing new does nothing. Each of the chip's
operations may fail, and one that fails changes nothing: the image then stays to be written. A failed
reading counts as an erased store.
-/

namespace Autotype

/-! ## The chip -/

def flashSize : Nat := 2 * 1024 * 1024

abbrev sectorSize : Nat := 4096

/-- Where the sector of the store begins in the flash chip: it is the last one. -/
def storeSector : Nat := flashSize - sectorSize

/-- What can be done to a sector. -/
inductive FlashOp where
  | read
  | erase
  | program
  deriving DecidableEq, Repr

/-- Something that was done to a sector, and whether it worked. -/
structure FlashCall where
  op : FlashOp
  failed : Bool
  deriving DecidableEq, Repr

/-- A call in words: offsets and lengths in the chip are numbers of bytes. -/
def FlashCall.text (call : FlashCall) : String :=
  let what := match call.op with
    | .read => "flash_read " ++ toString storeSector ++ " " ++ toString storeSize
    | .erase => "flash_erase " ++ toString storeSector ++ " " ++ toString (storeSector + sectorSize)
    | .program => "flash_write " ++ toString storeSector ++ " " ++ toString storeSize
  if call.failed then what ++ " failed" else what

/-- How many of the next operations of each kind fail. -/
structure FlashFaults where
  read : Nat := 0
  erase : Nat := 0
  program : Nat := 0
  deriving DecidableEq, Repr

/-- The sector of a flash chip in which the store lives. -/
structure Flash where
  sector : Cells sectorSize := .blank sectorSize
  /-- What will fail. -/
  faults : FlashFaults := {}
  /-- What was done to the sector, the latest first. -/
  calls : List FlashCall := []
  deriving DecidableEq

namespace Flash

/-- The part of the sector that the store uses. -/
def image (f : Flash) : Cells storeSize :=
  .ofFn fun i => f.sector.get ⟨i.val, Nat.lt_trans i.isLt (by decide)⟩

/-- Reads the store's part of the sector, unless that fails. -/
def read (f : Flash) : Option (Cells storeSize) × Flash :=
  let failed := decide (0 < f.faults.read)
  (if failed then none else some f.image,
    { f with
      faults := { f.faults with read := f.faults.read - 1 }
      calls := ⟨.read, failed⟩ :: f.calls })

/-- Erases the sector, and says whether that worked. -/
def erase (f : Flash) : Bool × Flash :=
  let failed := decide (0 < f.faults.erase)
  (!failed,
    { sector := if failed then f.sector else .blank sectorSize
      faults := { f.faults with erase := f.faults.erase - 1 }
      calls := ⟨.erase, failed⟩ :: f.calls })

/-- The sector after an image was programmed: of each cell the bits that it has in common with the image
remain. -/
def programmed (f : Flash) (image : Cells storeSize) : Cells sectorSize :=
  .ofFn fun i => if h : i.val < storeSize then f.sector.get i &&& image[i.val] else f.sector.get i

/-- Programs an image into the store's part of the sector, and says whether that worked. -/
def program (f : Flash) (image : Cells storeSize) : Bool × Flash :=
  let failed := decide (0 < f.faults.program)
  (!failed,
    { sector := if failed then f.sector else f.programmed image
      faults := { f.faults with program := f.faults.program - 1 }
      calls := ⟨.program, failed⟩ :: f.calls })

end Flash

/-! ## The medium -/

/-- An image of the store, kept until the next flush. -/
structure FlashStore where
  /-- The cells as they were last read or written. -/
  image : Cells storeSize
  /-- Whether the image was written to since the last flush that worked. -/
  dirty : Bool := false
  flash : Flash
  deriving DecidableEq

namespace FlashStore

/-- Reads the store from a chip. -/
def load (f : Flash) : FlashStore :=
  let (content, flash) := f.read
  { image := content.getD (.blank storeSize), flash := flash }

def read (f : FlashStore) (a : Nat) : UInt8 :=
  if h : a < storeSize then f.image[a] else erased

def write (f : FlashStore) (a : Nat) (v : UInt8) : FlashStore :=
  { f with image := f.image.setIfInBounds a v, dirty := true }

/-- Brings the image to the chip. -/
def flush (f : FlashStore) : FlashStore :=
  if f.dirty then
    match f.flash.erase with
    | (false, flash) => { f with flash := flash }
    | (true, flash) =>
      match flash.program f.image with
      | (false, flash) => { f with flash := flash }
      | (true, flash) => { f with flash := flash, dirty := false }
  else f

instance : Medium FlashStore where
  capacity _ := storeSize
  read := FlashStore.read
  write := FlashStore.write
  flush := FlashStore.flush

@[simp] theorem image_flush (f : FlashStore) : f.flush.image = f.image := by
  unfold flush
  split
  · split
    · rfl
    · split <;> rfl
  · rfl

instance : LawfulMedium FlashStore where
  read_write_self f a v h := by
    have inside : a < storeSize := Nat.lt_of_lt_of_le h (Nat.min_le_right _ _)
    simp [Medium.read, Medium.write, FlashStore.read, FlashStore.write, inside]
  read_write_of_ne f a b v _ hne := by
    simp only [Medium.read, Medium.write, FlashStore.read, FlashStore.write]
    split
    · simp [hne]
    · rfl
  capacity_write _ _ _ := rfl
  read_flush f a := by
    simp [Medium.read, Medium.flush, FlashStore.read]
  capacity_flush _ := rfl

end FlashStore

end Autotype
