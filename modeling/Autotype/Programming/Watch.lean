import Autotype.Boot.Mode
import Autotype.Clock
import Autotype.Routine.Wait

/-!
# Leaving the programming mode

The programming mode ends when the host asks for it, or when no host made contact within a time limit;
a host that made contact once may take all the time it wants. The light is on meanwhile, and the end is
a restart.
-/

namespace Autotype

/-- How long the programming mode waits for a first contact, in milliseconds. -/
def programmingTimeout : UInt32 := 5000

/-- A watch over a host that may never come. -/
structure Watch where
  /-- The clock reading from which the limit counts. -/
  since : UInt32
  limit : UInt32 := programmingTimeout
  seen : Bool := false
  deriving DecidableEq, Repr

namespace Watch

/-- Looks at the host and the clock, and says whether it is time to leave. A wish to leave comes first
and needs no contact. -/
def check (w : Watch) (now : UInt32) (active exit : Bool) : Option RestartReason × Watch :=
  if exit then (some .exitRequested, w)
  else
    let w := { w with seen := w.seen || active }
    (if !w.seen && elapsed now w.since w.limit then some .idleTimeout else none, w)

end Watch

/-- A world with a host that programs the device. -/
class ProgrammingLink (σ : Type) where
  isActive : σ → Bool
  exitRequested : σ → Bool

variable {σ : Type} [Surroundings σ] [ProgrammingLink σ]

/-- One poll, and a look at the host and the clock after it. -/
def watchOnce (w : Watch) : Routine σ (RestartReason ⊕ Watch) := do
  Surroundings.poll
  let s ← get
  match w.check (Surroundings.now s) (ProgrammingLink.isActive s) (ProgrammingLink.exitRequested s) with
  | (some reason, _) => return .inl reason
  | (none, w) => return .inr w

theorem watchOnce_eq (w : Watch) (s : σ) :
    watchOnce w s =
      match Surroundings.poll s with
      | .ok _ t =>
        match w.check (Surroundings.now t) (ProgrammingLink.isActive t) (ProgrammingLink.exitRequested t) with
        | (some reason, _) => .ok (.inl reason) t
        | (none, w) => .ok (.inr w) t
      | .error e t => .error e t := by
  simp only [watchOnce, bind, EStateM.bind]
  cases Surroundings.poll s with
  | ok u t =>
    dsimp only
    show (match w.check (Surroundings.now t) (ProgrammingLink.isActive t)
        (ProgrammingLink.exitRequested t) with
      | (some reason, _) => pure (.inl reason)
      | (none, w) => pure (.inr w) : Routine σ (RestartReason ⊕ Watch)) t = _
    generalize w.check (Surroundings.now t) (ProgrammingLink.isActive t)
      (ProgrammingLink.exitRequested t) = found
    rcases found with ⟨_ | reason, w'⟩
    · rfl
    · rfl
  | error e t => rfl

/-- A round of waiting for the end uses up patience. -/
theorem polls_watchOnce : Routine.Polls (watchOnce (σ := σ)) := by
  intro w w' s t back
  rw [watchOnce_eq] at back
  split at back
  · next poll =>
    split at back
    · cases back
    · cases back
      exact Surroundings.patience_poll poll
  · cases back

/-- Polls until it is time to leave the programming mode. -/
def waitForExit : Routine σ RestartReason := do
  let since := Surroundings.now (← get)
  Routine.loop watchOnce { since := since }

/-- The programmer's life: it ends with the watchdog armed. -/
def runProgramming [StatusLight σ] [ResetControl σ] : Routine σ RestartReason := do
  setLight true
  let reason ← waitForExit
  setLight false
  modify (ResetControl.armRestart reason)
  return reason

end Autotype
