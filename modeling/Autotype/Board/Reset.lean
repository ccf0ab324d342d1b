import Autotype.Boot.Mode

/-!
# The board's reset registers

The chip on the board knows one cause, that its watchdog ran out, and it cannot be made to forget that.
What can be written is a scratch register, which keeps its content until the power goes; arming a restart
leaves a copy of the cause there, marked so that it cannot be mistaken for anything else.
-/

namespace Autotype

/-- The chip's reset registers. -/
structure ResetUnit where
  watchdogReset : Bool := false
  scratch : UInt32 := 0
  deriving DecidableEq, Repr

namespace ResetUnit

def scratchIndex : Nat := 0

/-- The mark in the upper half of the scratch register that says that the lower half is a cause. -/
def mark : UInt32 := 0x7B5C0000

/-- What the scratch register holds while a restart is armed. -/
def armedScratch : UInt32 :=
  mark ||| ResetCause.watchdog.bits.toUInt32

/-- The chip's own cause. -/
def cause (u : ResetUnit) : ResetCause :=
  if u.watchdogReset then .watchdog else .powerOn

/-- The cause in the scratch register; without the mark there is none. -/
def backup (u : ResetUnit) : ResetCause :=
  if u.scratch &&& 0xFFFF0000 == mark then ⟨u.scratch.toUInt8⟩ else .none

instance : ResetControl ResetUnit where
  cause := cause
  backupCause := backup
  clearCauses u := { u with scratch := 0 }
  disableWatchdog u := u
  armRestart _ u := { u with scratch := armedScratch }

end ResetUnit

end Autotype
