import Autotype.Store.Geometry
import Autotype.Word

/-!
# The header of a committed script

The header says which script, if any, the store holds. A script is there when the header carries the
version this device understands and a length that fits the script region; the checksum is not part of
that test. `Header.decode_encode` and `Header.encode_decode` say that the eight stored bytes and the
five fields determine each other.
-/

namespace Autotype

/-- What is written down about a committed script. -/
structure Header where
  version : UInt8 := 0
  /-- Flags that are kept for the host and mean nothing to the device. -/
  flags : UInt8 := 0
  /-- How long to wait before typing, in units of `Header.delayUnit`. -/
  delay : UInt16 := 0
  length : UInt16 := 0
  checksum : UInt16 := 0
  deriving DecidableEq, Repr, Inhabited

namespace Header

/-- The version a header must carry for its script to be run. -/
def currentVersion : UInt8 := 0x1A

/-- The unit of the initial delay, in milliseconds. -/
def delayUnit : UInt32 := 100

def versionOffset : Nat := 0

def flagsOffset : Nat := 1

def delayOffset : Nat := 2

def lengthOffset : Nat := 4

def checksumOffset : Nat := 6

/-- The stored form of a header. -/
def encode (h : Header) : Vector UInt8 headerSize :=
  #v[h.version, h.flags, Word.low h.delay, Word.high h.delay, Word.low h.length, Word.high h.length,
    Word.low h.checksum, Word.high h.checksum]

/-- The header that eight stored bytes stand for. -/
def decode (raw : Vector UInt8 headerSize) : Header where
  version := raw[0]
  flags := raw[1]
  delay := Word.ofBytes raw[2] raw[3]
  length := Word.ofBytes raw[4] raw[5]
  checksum := Word.ofBytes raw[6] raw[7]

/-- Whether the header announces a script that this device can run. -/
def isValid (h : Header) : Bool :=
  h.version == currentVersion && (0 < h.length.toNat && h.length.toNat ≤ maxScript)

@[simp] theorem decode_encode (h : Header) : decode (encode h) = h := by
  simp [decode, encode]

@[simp] theorem encode_decode (raw : Vector UInt8 headerSize) : encode (decode raw) = raw := by
  apply Vector.ext
  intro i hi
  simp only [headerSize] at hi
  match i, hi with
  | 0, _ | 1, _ | 2, _ | 3, _ | 4, _ | 5, _ | 6, _ | 7, _ =>
    simp only [encode, decode, Word.low_ofBytes, Word.high_ofBytes]
    rfl

theorem isValid_iff (h : Header) :
    h.isValid = true ↔ h.version = currentVersion ∧ 0 < h.length.toNat ∧ h.length.toNat ≤ maxScript := by
  simp [isValid]

end Header

end Autotype
