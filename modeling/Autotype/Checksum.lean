import Autotype.Word

/-!
# The script checksum

A script is vouched for by a sixteen-bit cyclic redundancy check: the register starts with all bits
set, takes in one byte at a time, most significant bit first, and is divided by
`x^16 + x^12 + x^5 + 1`; nothing is reflected and nothing is added at the end. The register can
therefore be carried along while a script arrives in pieces (`Checksum.feedAll_append`).
-/

namespace Autotype.Checksum

/-- The register before the first byte. -/
def initial : UInt16 := 0xFFFF

/-- The divisor without its leading term. -/
def divisor : UInt16 := 0x1021

/-- Moves the register up by one bit and takes the divisor away if a one leaves at the top. -/
def shift (register : UInt16) : UInt16 :=
  if register.toBitVec.msb then (register <<< 1) ^^^ divisor else register <<< 1

/-- Takes in one byte: it is added at the top of the register, which then moves up by eight bits. -/
def feed (register : UInt16) (byte : UInt8) : UInt16 :=
  Nat.repeat shift 8 (register ^^^ (byte.toUInt16 <<< 8))

/-- Takes in a string of bytes. -/
def feedAll (register : UInt16) (bytes : Bytes) : UInt16 :=
  bytes.foldl feed register

/-- The checksum of a string of bytes. -/
def ofBytes (bytes : Bytes) : UInt16 :=
  feedAll initial bytes

@[simp] theorem feedAll_nil (r : UInt16) : feedAll r [] = r :=
  rfl

@[simp] theorem feedAll_cons (r : UInt16) (b : UInt8) (bs : Bytes) :
    feedAll r (b :: bs) = feedAll (feed r b) bs :=
  rfl

/-- Bytes that arrive in two pieces leave the register as the whole string does. -/
theorem feedAll_append (r : UInt16) (a b : Bytes) :
    feedAll r (a ++ b) = feedAll (feedAll r a) b := by
  simp [feedAll]

end Autotype.Checksum
