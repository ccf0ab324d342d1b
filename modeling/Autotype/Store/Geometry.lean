/-!
# Where things lie in the store

The store is 512 cells: an eight-byte header, the script right after it, and one last cell that is
kept free. A cell that was never written, and every address outside the store, reads as `erased`.
-/

namespace Autotype

/-- The number of cells of the store. -/
abbrev storeSize : Nat := 512

/-- The number of cells the header takes, from address 0 on. -/
abbrev headerSize : Nat := 8

/-- The number of cells kept free at the end of the store. -/
abbrev reservedSize : Nat := 1

/-- The address of the first script byte. -/
abbrev scriptStart : Nat := headerSize

/-- The longest script that fits between the header and the reserved cell. -/
abbrev maxScript : Nat := storeSize - headerSize - reservedSize

/-- The address of the reserved cell. -/
abbrev reservedAddress : Nat := storeSize - reservedSize

/-- What an erased cell reads as. -/
def erased : UInt8 := 0xFF

/-- The script region ends where the reserved cell begins. -/
theorem scriptStart_add_maxScript : scriptStart + maxScript = reservedAddress :=
  rfl

end Autotype
