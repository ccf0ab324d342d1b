import Autotype.Engine.Action

/-!
# What is held, and where an engine stands

Three things are kept apart that an engine keeps together: what is held at the keyboard, which alone
decides what a report says; where the engine stands, which alone decides what comes next; and the report
that was given last, which decides nothing. Actions that type change the first and leave the second
alone.
-/

namespace Autotype

/-- What is held at a keyboard. -/
structure Held where
  modifiers : UInt8 := 0
  keys : KeySet := .empty
  deriving DecidableEq

namespace Held

def report (h : Held) : Report :=
  .ofState h.modifiers h.keys

def press (code : UInt8) (h : Held) : Held :=
  { h with keys := h.keys.insert code }

def release (code : UInt8) (h : Held) : Held :=
  { h with keys := h.keys.erase code }

def hold (mask : UInt8) (h : Held) : Held :=
  { h with modifiers := mask }

end Held

/-- Where an engine stands. -/
structure Control where
  state : RunState
  pc : Nat
  length : Nat
  loop : Option Loop
  fault : Option Fault
  deriving DecidableEq

/-- The offset and the loop after the end of an instruction at which a loop may close. -/
def Loop.closed (loop : Option Loop) (pc : Nat) : Nat × Option Loop :=
  match loop with
  | none => (pc, none)
  | some l =>
    if pc < l.stop then (pc, some l)
    else if 1 < l.remaining then (l.start, some { l with remaining := l.remaining - 1 })
    else (pc, none)

namespace Engine

def held (e : Engine) : Held :=
  ⟨e.modifiers, e.keys⟩

def control (e : Engine) : Control :=
  ⟨e.state, e.pc, e.length, e.loop, e.fault⟩

theorem isRunning_eq (e : Engine) : e.isRunning = e.control.state.isRunning := rfl

@[simp] theorem held_send (e : Engine) : (e.act .send).held = e.held := rfl

@[simp] theorem control_letGo (e : Engine) : (e.act .letGo).control = e.control := rfl

@[simp] theorem control_send (e : Engine) : (e.act .send).control = e.control := rfl

@[simp] theorem held_beginLoop (e : Engine) (count length : UInt8) :
    (e.act (.beginLoop count length)).held = e.held := by
  simp only [act, beginLoop]
  split <;> rfl

/-- Closing a loop is a matter of the offset and the loop alone. -/
theorem closeLoop_eq (e : Engine) :
    e.closeLoop = { e with pc := (Loop.closed e.loop e.pc).1, loop := (Loop.closed e.loop e.pc).2 } := by
  obtain ⟨state, pc, length, modifiers, keys, report, loop, fault⟩ := e
  cases loop with
  | none => rfl
  | some l =>
    by_cases inside : pc < l.stop
    · simp [closeLoop, Loop.closed, inside]
    · by_cases again : 1 < l.remaining <;> simp [closeLoop, Loop.closed, inside, again]

@[simp] theorem held_closeLoop (e : Engine) : (e.act .closeLoop).held = e.held := by
  rw [act, closeLoop_eq]
  rfl

@[simp] theorem control_goto (e : Engine) (pc : Nat) :
    (e.act (.goto pc)).control = { e.control with pc := pc } := rfl

@[simp] theorem control_enter (e : Engine) (state : RunState) :
    (e.act (.enter state)).control = { e.control with state := state } := rfl

@[simp] theorem control_closeLoop (e : Engine) :
    (e.act .closeLoop).control =
      { e.control with
        pc := (Loop.closed e.control.loop e.control.pc).1
        loop := (Loop.closed e.control.loop e.control.pc).2 } := by
  rw [act, closeLoop_eq]
  rfl

theorem control_beginLoop_none {e : Engine} (idle : e.control.loop = none) (count length : UInt8) :
    (e.act (.beginLoop count length)).control =
      { e.control with loop := some ⟨e.control.pc, length.toNat, count.toNat⟩ } := by
  obtain ⟨state, pc, length, modifiers, keys, report, loop, fault⟩ := e
  cases idle
  rfl

theorem control_beginLoop_some {e : Engine} {l : Loop} (active : e.control.loop = some l)
    (count length : UInt8) :
    (e.act (.beginLoop count length)).control =
      { e.control with pc := e.control.pc + length.toNat } := by
  obtain ⟨state, pc, length, modifiers, keys, report, loop, fault⟩ := e
  cases active
  rfl

end Engine

end Autotype
