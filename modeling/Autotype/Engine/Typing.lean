import Autotype.Engine.Station

/-!
# Life as a keyboard

As a keyboard the device waits for a host, blinks twice to show that it was found, waits as long as the
script asks for, and then runs the script, polling between any two pieces of work. The script ends; this
life does not.
-/

namespace Autotype

/-- How often the light flashes when a host was found. -/
def connectFlashes : Nat := 2

/-- How long the light is on in each of these flashes, in milliseconds. -/
def connectFlashOn : UInt32 := 80

/-- How long the light is off after each of these flashes, in milliseconds. -/
def connectFlashOff : UInt32 := 80

namespace Station

variable {σ μ : Type} [Surroundings σ] [Transport σ] [Medium μ]

/-- Waits for a host and for the initial delay, and starts the script. -/
def startTyping [StatusLight σ] (store : Store μ) : Routine (Station σ) RunState := do
  setLight false
  waitForHost
  blink connectFlashOn connectFlashOff connectFlashes
  if 0 < store.initialDelay then waitMs store.initialDelay
  modify fun s => { s with engine := s.engine.start store }
  return (← get).engine.state

/-- One round of the keyboard's life: a poll, and one piece of work. -/
def typeOnce (layout : Layout) (store : Store μ) (_ : Unit) : Routine (Station σ) (Empty ⊕ Unit) := do
  Surroundings.poll
  tick layout store
  return .inr ()

/-- A round of the keyboard's life uses up patience. -/
theorem polls_typeOnce (layout : Layout) (store : Store μ) :
    Routine.Polls (typeOnce (σ := σ) layout store) := by
  intro _ _ s t h
  simp only [typeOnce, bind, EStateM.bind] at h
  split at h
  · next u hu =>
    split at h
    · next v hv =>
      cases h
      exact Nat.lt_of_le_of_lt (tick_ok hv).2 (Surroundings.patience_poll hu)
    · cases h
  · cases h

/-- The keyboard's life, which does not come back. -/
def runKeyboard [StatusLight σ] (layout : Layout) (store : Store μ) : Routine (Station σ) Empty := do
  let _ ← startTyping store
  Routine.loop (typeOnce layout store) ()

end Station

end Autotype
