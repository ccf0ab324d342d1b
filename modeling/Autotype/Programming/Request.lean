import Autotype.Programming.Status
import Autotype.Store.Header
import Autotype.Word

/-!
# Requests

A host speaks to the programmer in reports of 32 bytes: a command and its arguments, words with the low
byte first. A report that is shorter counts as filled up with zeros and what goes beyond is left out, so
every report that is not empty has all its arguments; only its first byte can be wrong.

```text
01 address:2 length:2 data          write
02 address:2 length:2               read
03 length:2 data                    append
04                                  reset
05 options version flags delay:2 length:2 checksum:2   commit
06                                  status
07                                  exit
```
-/

namespace Autotype

/-- The number of bytes of a report. -/
abbrev reportSize : Nat := 32

/-- What a host asks for. -/
inductive Request where
  /-- Write the first `length` bytes of the payload at an address. -/
  | write (address length : Nat) (payload : Bytes)
  /-- Read `length` bytes from an address on. -/
  | read (address length : Nat)
  /-- Write the first `length` bytes of the payload after what was appended before. -/
  | append (length : Nat) (payload : Bytes)
  /-- Forget what was appended. -/
  | reset
  /-- Take over a script under this header. Its checksum is compared with that of the script region or,
  otherwise, with that of what was appended. -/
  | commit (fromStore : Bool) (header : Header)
  /-- Say how things stand. -/
  | status
  /-- End the programming mode. -/
  | exit
  deriving DecidableEq, Repr

namespace Request

/-! ## Commands -/

@[match_pattern] def writeCommand : UInt8 := 0x01

@[match_pattern] def readCommand : UInt8 := 0x02

@[match_pattern] def appendCommand : UInt8 := 0x03

@[match_pattern] def resetCommand : UInt8 := 0x04

@[match_pattern] def commitCommand : UInt8 := 0x05

@[match_pattern] def statusCommand : UInt8 := 0x06

@[match_pattern] def exitCommand : UInt8 := 0x07

/-- The option of a commit that asks for the checksum of the script region. -/
def fromStoreOption : UInt8 := 0x01

/-! ## Limits -/

/-- The most data a write can carry: what its command, address and length leave of a report. -/
def maxWrite : Nat := reportSize - 5

/-- The most data a read can ask for: what the status and the length leave of a reply. -/
def maxRead : Nat := reportSize - 3

/-- The most data an append can carry: what its command and length leave of a report. -/
def maxAppend : Nat := reportSize - 3

/-! ## Reading reports -/

/-- A report brought to its full size. -/
def frame (report : Bytes) : Vector UInt8 reportSize :=
  let source := report.toArray
  .ofFn fun i => source.getD i.val 0

/-- What the host asks for with a report of full size. -/
def ofFrame? (f : Vector UInt8 reportSize) : Option Request :=
  match f[0] with
  | writeCommand => some (.write (Word.ofBytes f[1] f[2]).toNat (Word.ofBytes f[3] f[4]).toNat (f.toList.drop 5))
  | readCommand => some (.read (Word.ofBytes f[1] f[2]).toNat (Word.ofBytes f[3] f[4]).toNat)
  | appendCommand => some (.append (Word.ofBytes f[1] f[2]).toNat (f.toList.drop 3))
  | resetCommand => some .reset
  | commitCommand => some <| .commit (f[1] &&& fromStoreOption != 0)
    { version := f[2], flags := f[3], delay := Word.ofBytes f[4] f[5],
      length := Word.ofBytes f[6] f[7], checksum := Word.ofBytes f[8] f[9] }
  | statusCommand => some .status
  | exitCommand => some .exit
  | _ => none

/-- What the host asks for with a report. -/
def ofReport? : Bytes → Option Request
  | [] => none
  | report => ofFrame? (frame report)

end Request

end Autotype
