import Autotype.Bench.Chip
import Autotype.Engine.Typing
import Autotype.Programming.Watch

/-!
# The bench

The bench is a world that behaves by a few numbers: how many milliseconds a poll takes, how many polls
the host stays busy after a report, after how many polls it is there, makes contact and asks to leave,
and how many polls come back at all. What is handed to the host and what the light does is written down
with the number of polls and the clock reading at that moment.
-/

namespace Autotype

/-- Something that can be seen from outside. -/
inductive Sighting where
  | report (r : Report)
  | light (lit : Bool)
  deriving DecidableEq

/-- A sighting with the polls and the clock reading at which it was made. -/
structure Entry where
  what : Sighting
  /-- The number of polls before it. -/
  polls : Nat
  now : UInt32
  deriving DecidableEq

/-- A world that behaves by numbers. -/
structure Bench where
  now : UInt32 := 0
  /-- How long a poll takes, in milliseconds. -/
  msPerPoll : UInt32 := 0
  /-- How many polls come back. -/
  budget : Nat := 1000000
  polls : Nat := 0
  /-- How many polls the host is still busy. -/
  busy : Nat := 0
  /-- How many polls a report keeps the host busy. -/
  busyAfter : Nat := 0
  /-- The number of polls after which the host is there. -/
  connectAfter : Nat := 0
  /-- The number of polls after which the host made contact. -/
  activityAt : Option Nat := none
  /-- The number of polls after which the host asks to leave. -/
  exitAt : Option Nat := none
  lit : Bool := false
  chip : BenchChip := {}
  /-- What was seen, the latest first. -/
  log : List Entry := []
  deriving DecidableEq

namespace Bench

def note (b : Bench) (what : Sighting) : Bench :=
  { b with log := ⟨what, b.polls, b.now⟩ :: b.log }

/-- Lets time pass without a poll. -/
def advance (b : Bench) (ms : UInt32) : Bench :=
  { b with now := b.now + ms }

/-- The bench after a poll that came back. -/
def polled (b : Bench) : Bench :=
  { b with polls := b.polls + 1, busy := b.busy - 1, now := b.now + b.msPerPoll }

instance : Surroundings Bench where
  now b := b.now
  poll b := if b.polls < b.budget then .ok () b.polled else .error .gaveUp b
  patience b := b.budget - b.polls
  patience_poll {b b'} h := by
    by_cases left : b.polls < b.budget
    · rw [if_pos left] at h
      cases h
      simp only [polled]
      omega
    · rw [if_neg left] at h
      cases h

instance : Transport Bench where
  isReady b := b.busy == 0
  isConnected b := b.connectAfter ≤ b.polls
  send r b := { b.note (.report r) with busy := b.busyAfter }
  patience_send _ _ := Nat.le_refl _

instance : StatusLight Bench where
  setLight lit b := { b.note (.light lit) with lit := lit }
  patience_setLight _ _ := Nat.le_refl _

instance : ProgrammingLink Bench where
  isActive b := b.activityAt.any (· ≤ b.polls)
  exitRequested b := b.exitAt.any (· ≤ b.polls)

instance : ResetControl Bench where
  cause b := ResetControl.cause b.chip
  backupCause b := ResetControl.backupCause b.chip
  clearCauses b := { b with chip := ResetControl.clearCauses b.chip }
  disableWatchdog b := { b with chip := ResetControl.disableWatchdog b.chip }
  armRestart reason b := { b with chip := ResetControl.armRestart reason b.chip }

end Bench

namespace Station

variable {μ : Type} [Medium μ]

/-- Ticks the engine while it is running, at most `most` times, letting `advance` milliseconds pass after
each tick, and adds the number of ticks to those that are `done`. -/
def runTicks (layout : Layout) (store : Store μ) (advance : UInt32) :
    Nat → Nat → Routine (Station Bench) Nat
  | 0, done => pure done
  | most + 1, done => do
    if (← get).engine.isRunning then
      tick layout store
      modify fun s => { s with host := s.host.advance advance }
      runTicks layout store advance most (done + 1)
    else return done

end Station

end Autotype
