import Autotype.Programming.Reply
import Autotype.Store.Basic

/-!
# Programming sessions

A session remembers how much of a script was appended, the checksum of that, and whether the host asked
to leave. Requests are carried out on a store one at a time. Writes and reads are given any address;
appends go into the script region one after the other, so that they never reach the header, and nothing
of them counts until a commit whose checksum is right writes the header. A commit with a wrong checksum
leaves no script behind.
-/

namespace Autotype

/-- What is remembered between two requests. -/
structure Session where
  /-- The number of bytes appended. -/
  offset : Nat := 0
  /-- The checksum of the bytes appended. -/
  checksum : UInt16 := Checksum.initial
  exitRequested : Bool := false
  deriving DecidableEq, Repr

/-- A request's reply, and the session and the store after it. -/
structure Outcome (μ : Type) where
  reply : Reply
  session : Session
  store : Store μ
  deriving DecidableEq

namespace Session

variable {μ : Type} [Medium μ]

/-- The session with nothing appended. -/
def restarted (s : Session) : Session :=
  { s with offset := 0, checksum := Checksum.initial }

/-- What is wrong with a span of addresses of which at most `most` can be asked for at a time. An
address outside the store is wrong whatever the length. -/
def spanFault? (address length most : Nat) : Option Refusal :=
  if storeSize ≤ address then some .invalidAddress
  else if length = 0 ∨ most < length ∨ storeSize < address + length then some .invalidLength
  else none

def write (s : Session) (store : Store μ) (address length : Nat) (payload : Bytes) : Outcome μ :=
  match spanFault? address length Request.maxWrite with
  | some why => ⟨.refused why, s, store⟩
  | none => ⟨.written length, s, store.writeBlock address (payload.take length)⟩

def read (s : Session) (store : Store μ) (address length : Nat) : Outcome μ :=
  match spanFault? address length Request.maxRead with
  | some why => ⟨.refused why, s, store⟩
  | none => ⟨.contents (store.readBlock address length), s, store⟩

/-- Writes data to the script region, after what was appended before. -/
def append (s : Session) (store : Store μ) (length : Nat) (payload : Bytes) : Outcome μ :=
  if length = 0 ∨ Request.maxAppend < length ∨ maxScript < s.offset + length then
    ⟨.refused .invalidLength, s, store⟩
  else
    let data := payload.take length
    let offset := s.offset + length
    let checksum := Checksum.feedAll s.checksum data
    ⟨.appended offset checksum, { s with offset := offset, checksum := checksum },
      store.writeBlock (scriptStart + s.offset) data⟩

/-- Compares checksums and takes a script over. The session starts anew unless the length is wrong. -/
def commit (s : Session) (store : Store μ) (fromStore : Bool) (header : Header) : Outcome μ :=
  if header.length = 0 ∨ maxScript < header.length.toNat then ⟨.refused .invalidLength, s, store⟩
  else
    let actual := if fromStore then store.scriptChecksum header.length.toNat else s.checksum
    if actual = header.checksum then ⟨.ok, s.restarted, store.commit header⟩
    else ⟨.refused .checksumMismatch, s.restarted, store.invalidate⟩

def handle (s : Session) (store : Store μ) : Request → Outcome μ
  | .write address length payload => s.write store address length payload
  | .read address length => s.read store address length
  | .append length payload => s.append store length payload
  | .reset => ⟨.ok, s.restarted, store⟩
  | .commit fromStore header => s.commit store fromStore header
  | .status => ⟨.summary s.offset s.checksum, s, store⟩
  | .exit => ⟨.silent, { s with exitRequested := true }, store⟩

/-- Takes in a report and carries out the request in it. -/
def receive (s : Session) (store : Store μ) (report : Bytes) : Outcome μ :=
  match Request.ofReport? report with
  | some request => s.handle store request
  | none => ⟨.refused .invalidCommand, s, store⟩

end Session

end Autotype
