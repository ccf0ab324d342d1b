import Autotype.Programming.Session

/-!
# The programmer

The programmer is what the host's reports reach: a session, its store, and a place for one reply, which
is there to be fetched once. Requests that are about to change the header or were meant to, a write or a
commit, also flush the store, whether they were refused or not. Any contact counts as a sign of life.
-/

namespace Autotype

/-- A session on a store, with the reply that waits to be fetched. -/
structure Programmer (μ : Type) where
  session : Session := {}
  store : Store μ
  /-- The reply that was not fetched yet. -/
  pending : Option Reply := none
  active : Bool := false
  deriving DecidableEq

namespace Programmer

variable {μ : Type} [Medium μ]

/-- A programmer that has heard nothing yet. -/
def new (store : Store μ) : Programmer μ :=
  { store := store }

/-- Whether a report asks for a write or a commit. -/
def asksForFlush (report : Bytes) : Bool :=
  match report.head? with
  | some Request.writeCommand | some Request.commitCommand => true
  | _ => false

/-- Takes in a report. Its reply, unless it is empty, takes the place of an earlier one. -/
def setReport (p : Programmer μ) (report : Bytes) : Programmer μ :=
  let outcome := p.session.receive p.store (report.take reportSize)
  { session := outcome.session
    store := if asksForFlush report then outcome.store.flush else outcome.store
    pending := if outcome.reply.isEmpty then none else some outcome.reply
    active := true }

/-- Fetches the waiting reply, filled up to a whole report, into a buffer: as much of it as fits goes over
the start of the buffer, and the number of bytes that went there is the answer. A reply can be fetched
once; without one the buffer is left alone. -/
def getReport (p : Programmer μ) (buffer : Bytes) : Nat × Bytes × Programmer μ :=
  let after := { p with pending := none, active := true }
  match p.pending with
  | none => (0, buffer, after)
  | some reply =>
    let count := min buffer.length reportSize
    (count, (Reply.padded reply.encode).take count ++ buffer.drop count, after)

/-- Takes note of a contact that asks for nothing. -/
def noteContact (p : Programmer μ) : Programmer μ :=
  { p with active := true }

end Programmer

end Autotype
