import Autotype.Hex

/-!
# Script faults

The two ways in which a script can be broken. Both name the offset of the byte at which it stopped.
-/

namespace Autotype

/-- Why a script cannot go on. -/
inductive Fault where
  /-- The byte at this offset is no opcode. -/
  | unknownOpcode (opcode : UInt8) (offset : Nat)
  /-- The script ends before the byte at this offset. -/
  | truncated (offset : Nat)
  deriving DecidableEq, Repr

/-- A fault in words. -/
def Fault.message : Fault → String
  | .unknownOpcode opcode offset =>
    "unknown opcode 0x" ++ Hex.encode [opcode] ++ " at offset " ++ toString offset
  | .truncated offset => "script truncated at offset " ++ toString offset

end Autotype
