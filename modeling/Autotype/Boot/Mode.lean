import Autotype.Boot.ResetCause

/-!
# Choosing a mode

The device has two lives. It starts as a programmer, which receives scripts, and it ends that life by
letting its watchdog run out; a start caused by the watchdog is one as a keyboard, which types the
script. Every start wipes the causes, so that the next one is judged on its own.
-/

namespace Autotype

/-- What the device is between two resets. -/
inductive Mode where
  | programming
  | keyboard
  deriving DecidableEq, Repr

/-- Why the device wants to be restarted. -/
inductive RestartReason where
  | exitRequested
  /-- No host ever spoke. -/
  | idleTimeout
  deriving DecidableEq, Repr

/-- A chip with reset causes and a watchdog. -/
class ResetControl (ρ : Type) where
  cause : ρ → ResetCause
  backupCause : ρ → ResetCause
  /-- Wipes the causes as far as they can be wiped. -/
  clearCauses : ρ → ρ
  disableWatchdog : ρ → ρ
  /-- Starts the watchdog, so that it soon runs out. -/
  armRestart : RestartReason → ρ → ρ

/-- How long an armed watchdog takes to run out, in milliseconds. -/
def restartDelay : UInt32 := 15

/-- The mode that a set of causes asks for. -/
def Mode.ofCause (cause : ResetCause) : Mode :=
  if cause.contains .watchdog then .keyboard else .programming

/-- Chooses the mode of a start, wipes the causes and stops the watchdog. -/
def selectMode {ρ : Type} [ResetControl ρ] (chip : ρ) : Mode × ρ :=
  let cause := ResetCause.resolve (ResetControl.cause chip) (ResetControl.backupCause chip)
  (.ofCause cause, ResetControl.disableWatchdog (ResetControl.clearCauses chip))

end Autotype
