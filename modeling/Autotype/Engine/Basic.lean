import Autotype.Keyboard.Report
import Autotype.Script.Basic
import Autotype.Script.Fault
import Autotype.Store.Basic

/-!
# The engine

The engine runs a script one instruction at a time. It remembers where it stands, which modifiers and
keys it holds, the one loop that may be active, and the report that the host was given last. What an
instruction does is spelled out as a list of actions (`Autotype.Engine.Action`): changes of the engine,
reports to the host, and moments at which the host is given a chance to do its own work.
-/

namespace Autotype

/-- Whether the engine has work to do, and why not. -/
inductive RunState where
  /-- No script was started, or the script was stopped. -/
  | idle
  /-- The next instruction is due. -/
  | running
  /-- The next instruction is due `span` milliseconds after clock reading `since`. -/
  | delaying (since span : UInt32)
  | finished
  | failed
  deriving DecidableEq, Repr

/-- Whether ticks still make progress. -/
def RunState.isRunning : RunState → Bool
  | .running | .delaying _ _ => true
  | .idle | .finished | .failed => false

/-- A loop that is being run. Loops do not nest. -/
structure Loop where
  /-- The offset of the first byte of the body. -/
  start : Nat
  length : Nat
  /-- The passes still to do, the present one included. -/
  remaining : Nat
  deriving DecidableEq, Repr

/-- The offset just past the body of a loop. -/
def Loop.stop (l : Loop) : Nat :=
  l.start + l.length

/-- An engine between two actions. -/
structure Engine where
  state : RunState := .idle
  pc : Nat := 0
  length : Nat := 0
  modifiers : UInt8 := 0
  keys : KeySet := .empty
  /-- The report the host was given last. -/
  report : Report := .empty
  loop : Option Loop := none
  fault : Option Fault := none
  deriving DecidableEq

namespace Engine

/-- Whether ticks still make progress. -/
def isRunning (e : Engine) : Bool :=
  e.state.isRunning

/-- The report that shows what is held now. -/
def heldReport (e : Engine) : Report :=
  .ofState e.modifiers e.keys

def letGo (e : Engine) : Engine :=
  { e with modifiers := 0, keys := .empty }

/-- Begins the committed script from its top, or goes idle if there is none. The report that the host
was given last stands until the next one. -/
def start {μ : Type} [Medium μ] (e : Engine) (s : Store μ) : Engine :=
  { e.letGo with
    state := if s.hasScript then .running else .idle
    pc := 0
    length := s.scriptLength.toNat
    loop := none
    fault := none }

/-- Begins a loop over the bytes that follow; inside a loop they are skipped instead. -/
def beginLoop (e : Engine) (count length : UInt8) : Engine :=
  match e.loop with
  | none => { e with loop := some ⟨e.pc, length.toNat, count.toNat⟩ }
  | some _ => { e with pc := e.pc + length.toNat }

/-- Once the active loop's body has been passed: goes back for the next pass, or leaves the loop. -/
def closeLoop (e : Engine) : Engine :=
  match e.loop with
  | none => e
  | some l =>
    if e.pc < l.stop then e
    else if 1 < l.remaining then
      { e with pc := l.start, loop := some { l with remaining := l.remaining - 1 } }
    else { e with loop := none }

end Engine

end Autotype
