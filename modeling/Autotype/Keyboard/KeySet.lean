import Autotype.Word

/-!
# The keys held down

A keyboard report has room for six keys, so six is what can be held at once. The keys lie in the first
of six slots, in the order in which they went down, except that releasing a key moves the last one into
its place; unused slots are zero. `KeySet.toList` is the view that everything else is stated in.
-/

namespace Autotype

/-- The number of keys that can be held at once. -/
abbrev maxKeys : Nat := 6

/-- The keys that are held down. -/
structure KeySet where
  /-- The slots; the first `count` of them are in use. -/
  slots : Vector UInt8 maxKeys := .replicate maxKeys 0
  count : Nat := 0
  deriving DecidableEq

namespace KeySet

def empty : KeySet := {}

/-- The keys held, in the order of their slots. -/
def toList (keys : KeySet) : Bytes :=
  keys.slots.toList.take keys.count

def contains (keys : KeySet) (code : UInt8) : Bool :=
  keys.toList.contains code

def isEmpty (keys : KeySet) : Bool :=
  keys.count == 0

/-- Whether a key can still go down, or is down already. -/
def admits (keys : KeySet) (code : UInt8) : Bool :=
  keys.contains code || keys.count < maxKeys

/-- The set after a key went down; a seventh key is not taken. -/
def insert (keys : KeySet) (code : UInt8) : KeySet :=
  if keys.contains code then keys
  else if h : keys.count < maxKeys then
    { slots := keys.slots.set keys.count code h, count := keys.count + 1 }
  else keys

/-- The set after a key came up; the last key takes its slot. -/
def erase (keys : KeySet) (code : UInt8) : KeySet :=
  match keys.toList.idxOf? code with
  | none => keys
  | some i =>
    let last := keys.count - 1
    let moved := keys.slots.setIfInBounds i (keys.slots.getD last 0)
    { slots := moved.setIfInBounds last 0, count := last }

@[simp] theorem toList_empty : empty.toList = [] :=
  rfl

@[simp] theorem contains_iff (keys : KeySet) (code : UInt8) :
    keys.contains code = true ↔ code ∈ keys.toList := by
  simp [contains]

/-- The keys held after a key went down. -/
theorem toList_insert (keys : KeySet) (code : UInt8) :
    (keys.insert code).toList =
      if code ∈ keys.toList ∨ maxKeys ≤ keys.count then keys.toList else keys.toList ++ [code] := by
  by_cases held : keys.contains code = true
  · have there : code ∈ keys.toList := (contains_iff keys code).mp held
    simp [insert, held, there]
  · have absent : code ∉ keys.toList := fun there => held ((contains_iff keys code).mpr there)
    by_cases room : keys.count < maxKeys
    · have size : keys.count < keys.slots.toList.length := by simpa using room
      rw [if_neg (by simp only [absent, false_or]; omega)]
      simp only [insert, if_neg held, dif_pos room, toList, Vector.toList_set]
      rw [List.take_add_one, List.take_set_of_le (Nat.le_refl _), List.getElem?_set_self size]
      rfl
    · rw [if_pos (Or.inr (Nat.le_of_not_lt room)), insert, if_neg held, dif_neg room]

end KeySet

end Autotype
