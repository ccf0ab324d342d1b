/-!
# Reset causes

The chip says why it was reset as a set of causes, one bit each. The set may have been emptied by the
time it is read, so a second copy is kept as a backup, which counts only if the first is empty.
-/

namespace Autotype

/-- A set of reset causes. -/
structure ResetCause where
  bits : UInt8
  deriving DecidableEq, Repr

namespace ResetCause

def none : ResetCause := ⟨0⟩

/-- Power was switched on. -/
def powerOn : ResetCause := ⟨1⟩

/-- The reset line was pulled. -/
def externalLine : ResetCause := ⟨2⟩

/-- Power broke down. -/
def brownOut : ResetCause := ⟨4⟩

/-- The watchdog ran out. -/
def watchdog : ResetCause := ⟨8⟩

def isEmpty (c : ResetCause) : Bool :=
  c.bits == 0

/-- Whether all causes of the second set are in the first. -/
def contains (c d : ResetCause) : Bool :=
  c.bits &&& d.bits == d.bits

def union (c d : ResetCause) : ResetCause :=
  ⟨c.bits ||| d.bits⟩

/-- The causes to go by: the backup counts only if the first copy is empty. -/
def resolve (primary backup : ResetCause) : ResetCause :=
  if primary.isEmpty then backup else primary

end ResetCause

end Autotype
