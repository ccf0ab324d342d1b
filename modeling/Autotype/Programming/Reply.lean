import Autotype.Programming.Request

/-!
# Replies

A reply is a status byte and what belongs to it, words with the low byte first. An exit alone is not
answered at all, and its reply is empty.
-/

namespace Autotype

/-- What the programmer answers. -/
inductive Reply where
  | silent
  | status (s : Status)
  | written (length : Nat)
  | contents (bytes : Bytes)
  /-- What was appended so far reaches up to this offset and has this checksum. -/
  | appended (offset : Nat) (checksum : UInt16)
  /-- How things stand; this reply fills a whole report. -/
  | summary (offset : Nat) (checksum : UInt16)
  deriving DecidableEq, Repr

/-- The version that the device gives as its own. -/
def firmwareVersion : UInt8 := 0x01

namespace Reply

/-- The request was carried out, and there is no more to say. -/
def ok : Reply :=
  .status .ok

def refused (why : Refusal) : Reply :=
  .status (.refused why)

/-- Bytes filled up with zeros to a whole report. -/
def padded (bytes : Bytes) : Bytes :=
  bytes ++ List.replicate (reportSize - bytes.length) 0

/-- A reply as it is sent. -/
def encode : Reply → Bytes
  | .silent => []
  | .status s => [s.code]
  | .written length => Status.code .ok :: Word.bytes (.ofNat length)
  | .contents bytes => Status.code .ok :: Word.bytes (.ofNat bytes.length) ++ bytes
  | .appended offset checksum =>
    Status.code .ok :: Word.bytes (.ofNat offset) ++ Word.bytes checksum
  | .summary offset checksum =>
    padded (Status.code .ok :: firmwareVersion :: Word.bytes (.ofNat storeSize) ++
      .ofNat reportSize :: Word.bytes checksum ++ Word.bytes (.ofNat offset))

/-- The status that a reply begins with, if it is not empty. -/
def leadingStatus? (r : Reply) : Option Status :=
  r.encode.head?.bind Status.ofCode?

def isEmpty (r : Reply) : Bool :=
  r.encode.isEmpty

end Reply

end Autotype
