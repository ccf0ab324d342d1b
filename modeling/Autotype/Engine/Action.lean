import Autotype.Clock
import Autotype.Engine.Basic
import Autotype.Keyboard.Layout

/-!
# What an engine does

One tick of an engine is a list of actions. Most change the engine; `send` hands the host a report of
what is held at that moment, and `poll` lets the host do its own work. The list depends only on the
engine, the script, the layout and the clock reading at the beginning of the tick (`Engine.actions`), so
a tick has a meaning of its own (`Engine.tick`, `Engine.reports`) whatever the host does meanwhile.
-/

namespace Autotype

/-- One thing an engine does. -/
inductive Action where
  | press (code : UInt8)
  | release (code : UInt8)
  /-- Holds exactly these modifiers. -/
  | hold (mask : UInt8)
  | letGo
  | goto (pc : Nat)
  /-- Begins a loop over the bytes that follow, or skips them inside a loop. -/
  | beginLoop (count length : UInt8)
  /-- Goes back to the start of a loop that was passed, or leaves it. -/
  | closeLoop
  | enter (state : RunState)
  /-- Records a fault and stops. -/
  | fail (fault : Fault)
  /-- Hands the host a report of what is held, once the host can take it. -/
  | send
  /-- Lets the host do its own work. -/
  | poll
  deriving DecidableEq, Repr

namespace Action

def tap (code : UInt8) : List Action :=
  [.press code, .send, .release code, .send]

/-- Types a character while `held` are the modifiers held: a character that needs shift is typed with
shift alone, after which the modifiers are put back; one that the layout lacks is passed over. -/
def typeChar (layout : Layout) (held : UInt8) (char : UInt8) : List Action :=
  match layout char with
  | none => [.poll]
  | some stroke =>
    if stroke.shift then
      .hold stroke.modifiers :: tap stroke.keycode ++ [.hold held, .send, .poll]
    else tap stroke.keycode ++ [.poll]

def typeText (layout : Layout) (held : UInt8) (chars : Bytes) : List Action :=
  chars.flatMap (typeChar layout held)

/-- Stops a script that is broken. -/
def failing (fault : Fault) : List Action :=
  [.fail fault, .letGo, .send]

end Action

/-- What an instruction does while `held` are the modifiers held and the clock reads `now`. -/
def Instr.actions (layout : Layout) (now : UInt32) (held : UInt8) : Instr → List Action
  | .finish => [.letGo, .send, .enter .finished]
  | .delay ms => [.enter (.delaying now ms.toUInt32)]
  | .keyDown code => [.press code, .send]
  | .keyUp code => [.release code, .send]
  | .modifiers mask => [.hold mask, .send]
  | .tap code => Action.tap code
  | .loop count length => [.beginLoop count length]
  | .combo mask code => [.hold mask, .press code, .send, .release code, .hold held, .send]
  | .text chars => Action.typeText layout held chars

namespace Engine

def act (e : Engine) : Action → Engine
  | .press code => { e with keys := e.keys.insert code }
  | .release code => { e with keys := e.keys.erase code }
  | .hold mask => { e with modifiers := mask }
  | .letGo => e.letGo
  | .goto pc => { e with pc := pc }
  | .beginLoop count length => e.beginLoop count length
  | .closeLoop => e.closeLoop
  | .enter state => { e with state := state }
  | .fail fault => { e with state := .failed, fault := some fault }
  | .send => { e with report := e.heldReport }
  | .poll => e

def acts (e : Engine) (actions : List Action) : Engine :=
  actions.foldl act e

/-- The reports that a list of actions hands to the host. -/
def reports (e : Engine) : List Action → List Report
  | [] => []
  | .send :: rest => e.heldReport :: (e.act .send).reports rest
  | action :: rest => (e.act action).reports rest

/-- The script as an engine reads it from the bytes of the script region: it ends where the script that
was started ends. -/
def script (e : Engine) (byteAt : Nat → UInt8) : Script :=
  ⟨e.length, byteAt⟩

/-- What running the instruction at the engine's offset consists of. -/
def stepActions (layout : Layout) (byteAt : Nat → UInt8) (now : UInt32) (e : Engine) : List Action :=
  match (e.script byteAt).decode e.pc with
  | .whole instr next => .goto next :: instr.actions layout now e.modifiers ++ [.closeLoop]
  | .cut typed offset =>
    Action.typeText layout e.modifiers typed ++ .goto offset :: Action.failing (.truncated offset)
  | .unknown opcode => .goto (e.pc + 1) :: Action.failing (.unknownOpcode opcode e.pc)

/-- What a tick consists of when the clock reads `now`: the next instruction, or the end of a delay. -/
def actions (layout : Layout) (byteAt : Nat → UInt8) (now : UInt32) (e : Engine) : List Action :=
  match e.state with
  | .running => e.stepActions layout byteAt now
  | .delaying since span => if elapsed now since span then [.enter .running] else []
  | .idle | .finished | .failed => []

def tick (layout : Layout) (byteAt : Nat → UInt8) (now : UInt32) (e : Engine) : Engine :=
  e.acts (e.actions layout byteAt now)

/-- What stopping an engine consists of. -/
def stopping : List Action :=
  [.letGo, .send, .enter .idle]

@[simp] theorem acts_nil (e : Engine) : e.acts [] = e :=
  rfl

@[simp] theorem acts_cons (e : Engine) (a : Action) (as : List Action) :
    e.acts (a :: as) = (e.act a).acts as :=
  rfl

@[simp] theorem acts_append (e : Engine) (as bs : List Action) :
    e.acts (as ++ bs) = (e.acts as).acts bs := by
  simp [acts]

/-- Reports come in the order of the actions. -/
@[simp] theorem reports_append (e : Engine) (as bs : List Action) :
    e.reports (as ++ bs) = e.reports as ++ (e.acts as).reports bs := by
  induction as generalizing e with
  | nil => rfl
  | cons a as ih => cases a <;> simp [reports, ih]

end Engine

end Autotype
