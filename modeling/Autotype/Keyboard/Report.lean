import Autotype.Keyboard.KeySet

/-!
# Keyboard reports

What the host is told about a keyboard is always its whole state: the modifier mask, a reserved byte and
six slots of key codes, zero where there is no key. Reports are made from the state that is held
(`Report.ofState`), never changed in place.
-/

namespace Autotype

/-- The state of a keyboard as it is sent to the host. -/
structure Report where
  modifiers : UInt8 := 0
  /-- A byte without meaning. -/
  reserved : UInt8 := 0
  /-- The keys held, zero where there is none. -/
  keycodes : Vector UInt8 maxKeys := .replicate maxKeys 0
  deriving DecidableEq

namespace Report

/-- The number of bytes of a report. -/
abbrev size : Nat := 8

/-- The report of a keyboard on which nothing is held. -/
def empty : Report := {}

/-- The report that shows these modifiers and keys as held. -/
def ofState (modifiers : UInt8) (keys : KeySet) : Report where
  modifiers := modifiers
  keycodes := .ofFn fun i => keys.toList.getD i.val 0

def toBytes (r : Report) : Bytes :=
  r.modifiers :: r.reserved :: r.keycodes.toList

/-- The report that eight bytes stand for. -/
def ofBytes (raw : Vector UInt8 size) : Report where
  modifiers := raw[0]
  reserved := raw[1]
  keycodes := .ofFn fun i => raw.get ⟨i.val + 2, Nat.add_lt_add_right i.isLt 2⟩

/-- Whether the report shows neither a modifier nor a key as held. -/
def isEmpty (r : Report) : Bool :=
  r.modifiers == 0 && r.keycodes.toList.all (· == 0)

/-- The keys that the report shows as held. -/
def pressed (r : Report) : Bytes :=
  r.keycodes.toList.filter (· != 0)

@[simp] theorem ofState_empty : ofState 0 .empty = empty := by
  decide

@[simp] theorem isEmpty_empty : empty.isEmpty = true := by
  decide

end Report

end Autotype
