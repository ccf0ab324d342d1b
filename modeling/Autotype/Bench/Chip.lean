import Autotype.Boot.Mode

/-!
# A chip on the bench

A chip whose two copies of the reset causes can be wiped and set at will, and whose watchdog only fires
when told to. It keeps a list of what was done to it.
-/

namespace Autotype

/-- Something that was done to a chip. -/
inductive ChipCall where
  | clear
  | disableWatchdog
  | arm
  deriving DecidableEq, Repr

/-- A chip that does only what it is told. -/
structure BenchChip where
  primary : ResetCause := .none
  backup : ResetCause := .none
  watchdog : Bool := false
  /-- Why the watchdog was started. -/
  armed : Option RestartReason := none
  /-- What was done to the chip, the latest last. -/
  calls : List ChipCall := []
  deriving DecidableEq, Repr

namespace BenchChip

instance : ResetControl BenchChip where
  cause c := c.primary
  backupCause c := c.backup
  clearCauses c := { c with primary := .none, backup := .none, calls := c.calls ++ [.clear] }
  disableWatchdog c := { c with watchdog := false, calls := c.calls ++ [.disableWatchdog] }
  armRestart reason c :=
    { c with watchdog := true, armed := some reason, calls := c.calls ++ [.arm] }

/-- The watchdog runs out. -/
def fire (c : BenchChip) : BenchChip :=
  { c with primary := .watchdog, backup := .watchdog, watchdog := false, armed := none }

/-- The power is switched off and on. -/
def powerCycle (c : BenchChip) : BenchChip :=
  { c with primary := .powerOn, backup := .none, watchdog := false, armed := none }

end BenchChip

end Autotype
