import Autotype.Proofs.Checked
import Autotype.Proofs.Pressed
import Mathlib.Data.Finset.Card

/-!
# The slots stand for a set

The slots of the keys held are one way to keep a set of at most six keys. After any changes they hold the
members of the set that the same changes make (`KeyChange.held`), each of them once, and zeros behind them
(`KeySet.StandsFor`). So it is seen from the slots alone whether the set has a member and how many there are,
and equal to the slots at first are only those of the empty set. The slots are also changed with a check of
each index and each sum (`Checked.Slots`), and none of these checks fails (`KeySet.stands_for_bounded_set`).
-/

namespace Autotype

/-! ## Sets of at most six keys -/

namespace KeyChange

/-- The set of the keys held after a change. A seventh key is not taken. -/
def apply (held : Finset UInt8) : KeyChange → Finset UInt8
  | .insert code => if code ∉ held ∧ held.card = maxKeys then held else Insert.insert code held
  | .erase code => held.erase code
  | .clear => ∅

/-- The set of the keys held after changes, the first one first. -/
def held (changes : List KeyChange) : Finset UInt8 :=
  changes.foldl apply ∅

end KeyChange

namespace KeySet

variable {keys : KeySet} {held : Finset UInt8}

/-- Whether the slots stand for a set of keys. -/
structure StandsFor (keys : KeySet) (held : Finset UInt8) : Prop where
  sound : keys.Sound
  padded : keys.Padded
  mem_iff : ∀ code, code ∈ keys.toList ↔ code ∈ held

theorem standsFor_empty : KeySet.empty.StandsFor ∅ where
  sound := sound_empty
  padded := by
    intro i inside _
    exact Vector.getElem_replicate inside
  mem_iff code := iff_of_false List.not_mem_nil (Finset.notMem_empty code)

namespace StandsFor

theorem toFinset_toList (stands : keys.StandsFor held) : keys.toList.toFinset = held := by
  ext code
  rw [List.mem_toFinset, stands.mem_iff]

theorem count_eq_card (stands : keys.StandsFor held) : keys.count = held.card := by
  rw [← stands.toFinset_toList, List.toFinset_card_of_nodup stands.sound.distinct,
    stands.sound.length_toList]

theorem contains_iff (stands : keys.StandsFor held) (code : UInt8) :
    keys.contains code = true ↔ code ∈ held := by
  rw [KeySet.contains_iff, stands.mem_iff]

/-- A key cannot go down just if it is not down yet and six others are. -/
theorem admits_eq_false_iff (stands : keys.StandsFor held) (code : UInt8) :
    keys.admits code = false ↔ code ∉ held ∧ held.card = maxKeys := by
  have most := stands.sound.fits
  rw [admits, Bool.or_eq_false_iff, Bool.eq_false_iff, Ne, stands.contains_iff, decide_eq_false_iff_not,
    ← stands.count_eq_card]
  exact and_congr_right fun _ => by omega

/-- Slots in use tell sets apart, and those that are not are zero: only the empty set has the first slots. -/
theorem eq_empty_iff (stands : keys.StandsFor held) : keys = .empty ↔ held = ∅ := by
  rw [← Finset.card_eq_zero, ← stands.count_eq_card]
  constructor
  · rintro rfl
    rfl
  · intro none
    have zero : keys.slots = KeySet.empty.slots := by
      refine Vector.ext fun i inside => ?_
      rw [stands.padded i inside (none ▸ Nat.zero_le i)]
      exact (Vector.getElem_replicate inside).symm
    obtain ⟨slots, count⟩ := keys
    cases zero
    cases none
    rfl

theorem insert (stands : keys.StandsFor held) (code : UInt8) :
    (keys.insert code).StandsFor (KeyChange.apply held (.insert code)) where
  sound := stands.sound.insert code
  padded := by
    intro i inside past
    rw [KeySet.insert] at past ⊢
    split at past
    · next there =>
      simp only [if_pos there]
      exact stands.padded i inside past
    · next absent =>
      split at past
      · next room =>
        simp only [if_neg absent, dif_pos room]
        rw [Vector.getElem_set_ne room inside (Nat.ne_of_lt past)]
        exact stands.padded i inside (Nat.le_of_succ_le past)
      · next full =>
        simp only [if_neg absent, dif_neg full]
        exact stands.padded i inside past
  mem_iff other := by
    have most := stands.sound.fits
    have size := stands.count_eq_card
    have member := stands.mem_iff code
    rw [toList_insert, KeyChange.apply]
    by_cases there : code ∈ held
    · rw [if_pos (.inl (member.mpr there)), if_neg (fun new => new.1 there),
        Finset.insert_eq_of_mem there, stands.mem_iff]
    · have absent : code ∉ keys.toList := mt member.mp there
      by_cases full : maxKeys ≤ keys.count
      · rw [if_pos (.inr full), if_pos ⟨there, by omega⟩, stands.mem_iff]
      · rw [if_neg (not_or_intro absent full), if_neg (fun new => full (by omega)), Finset.mem_insert,
          List.mem_append, List.mem_singleton, stands.mem_iff, or_comm]

/-- The slot that the last key leaves becomes zero, whether or not it was moved. -/
theorem erase (stands : keys.StandsFor held) (code : UInt8) :
    (keys.erase code).StandsFor (KeyChange.apply held (.erase code)) where
  sound := stands.sound.erase code
  padded := by
    intro i inside past
    rw [KeySet.erase] at past ⊢
    cases found : keys.toList.idxOf? code with
    | none =>
      rw [found] at past
      exact stands.padded i inside past
    | some slot =>
      rw [found] at past
      obtain ⟨used, -⟩ := List.idxOf?_eq_some_iff.mp found
      rw [stands.sound.length_toList] at used
      simp only at past
      simp only [Vector.getElem_setIfInBounds]
      by_cases last : keys.count - 1 = i
      · rw [if_pos last]
      · rw [if_neg last, if_neg (by omega)]
        exact stands.padded i inside (by omega)
  mem_iff other := by
    rw [(stands.sound.toList_erase_perm code).mem_iff, stands.sound.distinct.mem_erase_iff,
      stands.mem_iff, KeyChange.apply, Finset.mem_erase]

theorem after (stands : keys.StandsFor held) (change : KeyChange) :
    (keys.after change).StandsFor (change.apply held) := by
  cases change with
  | insert code => exact stands.insert code
  | erase code => exact stands.erase code
  | clear => exact standsFor_empty

theorem afterAll (stands : keys.StandsFor held) (changes : List KeyChange) :
    (keys.afterAll changes).StandsFor (changes.foldl KeyChange.apply held) := by
  induction changes generalizing keys held with
  | nil => exact stands
  | cons change changes ih => exact ih (stands.after change)

end StandsFor

end KeySet

/-! ## With every check -/

namespace Checked

/-- The number of values of a byte. -/
abbrev byteValues : Nat := 0x100

/-- A difference that has to stay a number. -/
def sub (a b : Nat) : Checked Nat :=
  if b ≤ a then .ok (a - b) else .error .overflow

theorem sub_ok {a b : Nat} (fits : b ≤ a) : sub a b = .ok (a - b) :=
  if_pos fits

/-- An array for the keys held, and how many of its slots are in use. -/
structure Slots where
  array : Bytes := .replicate maxKeys 0
  count : Nat := 0

namespace Slots

def ofKeys (keys : KeySet) : Slots :=
  ⟨keys.slots.toList, keys.count⟩

/-- The slots in use. -/
def used (s : Slots) : Checked Bytes :=
  slice s.array 0 s.count

/-- A key goes down, and whether it could. -/
def insert (s : Slots) (code : UInt8) : Checked (Bool × Slots) := do
  if (← s.used).contains code then return (true, s)
  if s.count = maxKeys then return (false, s)
  return (true, { array := ← put s.array s.count code, count := ← add byteValues s.count 1 })

/-- A key comes up, and the last one takes its slot. -/
def erase (s : Slots) (code : UInt8) : Checked Slots := do
  match (← s.used).idxOf? code with
  | none => return s
  | some i =>
    let last ← sub s.count 1
    let moved ← put s.array i (← index s.array last)
    return { array := ← put moved last 0, count := ← sub s.count 1 }

def after (s : Slots) : KeyChange → Checked Slots
  | .insert code => do return (← s.insert code).2
  | .erase code => s.erase code
  | .clear => .ok {}

def afterAll (s : Slots) (changes : List KeyChange) : Checked Slots :=
  changes.foldlM after s

variable {keys : KeySet}

theorem used_ok (sound : keys.Sound) : (ofKeys keys).used = .ok keys.toList :=
  slice_ok (Nat.zero_le _) (by rw [ofKeys, Vector.length_toList]; exact sound.fits)

theorem insert_ok (sound : keys.Sound) (code : UInt8) :
    (ofKeys keys).insert code = .ok (keys.admits code, ofKeys (keys.insert code)) := by
  have most := sound.fits
  rw [insert, used_ok sound, ok_bind, KeySet.admits, KeySet.insert]
  have same : keys.toList.contains code = keys.contains code := rfl
  rw [same]
  cases there : keys.contains code with
  | true => rfl
  | false =>
    by_cases room : keys.count < maxKeys
    · have inside : keys.count < keys.slots.toList.length := by rwa [Vector.length_toList]
      have below : keys.count + 1 < byteValues := Nat.lt_of_le_of_lt room (by decide)
      simp only [ofKeys, Nat.ne_of_lt room, put_ok code inside, add_ok below, ok_bind, pure_eq_ok, room,
        Vector.toList_set, decide_true, Bool.or_true, dif_pos, if_false, Bool.false_eq_true]
    · have full : keys.count = maxKeys := by omega
      simp only [ofKeys, full, Nat.lt_irrefl, if_true, if_false, dite_false, Bool.false_eq_true, pure_eq_ok,
        decide_false, Bool.or_false]

theorem erase_ok (sound : keys.Sound) (code : UInt8) :
    (ofKeys keys).erase code = .ok (ofKeys (keys.erase code)) := by
  have most := sound.fits
  rw [erase, used_ok sound, ok_bind, KeySet.erase]
  cases found : keys.toList.idxOf? code with
  | none => rfl
  | some i =>
    obtain ⟨used, -⟩ := List.idxOf?_eq_some_iff.mp found
    rw [sound.length_toList] at used
    have size : keys.slots.toList.length = maxKeys := Vector.length_toList
    have one : sub keys.count 1 = .ok (keys.count - 1) := sub_ok (by omega)
    have there : keys.count - 1 < keys.slots.toList.length := by omega
    have last : keys.slots.toList[keys.count - 1] = keys.slots.getD (keys.count - 1) 0 := by
      have inside : keys.count - 1 < maxKeys := by omega
      rw [Vector.getElem_toList, Vector.getD, Array.getD, dif_pos (by simpa using inside)]
      rfl
    have hole : (keys.slots.toList.set i (keys.slots.getD (keys.count - 1) 0)).length = maxKeys := by
      rw [List.length_set, size]
    simp only [ofKeys, one, ok_bind, index_ok there, last, put_ok _ (show i < keys.slots.toList.length by omega),
      put_ok 0 (show keys.count - 1 < _ by rw [hole]; omega), pure_eq_ok, Vector.toList_setIfInBounds]

theorem after_ok (sound : keys.Sound) (change : KeyChange) :
    (ofKeys keys).after change = .ok (ofKeys (keys.after change)) := by
  cases change with
  | insert code => rw [after, insert_ok sound, ok_bind, pure_eq_ok, KeySet.after]
  | erase code => exact erase_ok sound code
  | clear => rfl

theorem afterAll_ok (sound : keys.Sound) (changes : List KeyChange) :
    (ofKeys keys).afterAll changes = .ok (ofKeys (keys.afterAll changes)) := by
  induction changes generalizing keys with
  | nil => rfl
  | cons change changes ih =>
    rw [afterAll, List.foldlM_cons, after_ok sound, ok_bind]
    exact ih (sound.after change)

end Slots

end Checked

/-- Whatever keys go down and come up, and whenever all are let go: the slots in use hold the members of the
set that the same changes make, each once, and those behind them zeros. So a look at the slots tells whether
a key is in the set, how many are, whether another one can go down, and, by comparing the slots with those at
first, whether none is. All this is done without a sum or an index that leaves its range. -/
theorem KeySet.stands_for_bounded_set (changes : List KeyChange) :
    let keys := KeySet.empty.afterAll changes
    let held := KeyChange.held changes
    keys.toList.Nodup ∧ keys.toList.length ≤ 6 ∧ keys.toList.toFinset = held ∧
    (∀ code, keys.admits code = false ↔ code ∉ held ∧ held.card = 6) ∧
    (∀ code, keys.contains code = true ↔ code ∈ held) ∧
    keys.count = held.card ∧ (keys.isEmpty = true ↔ held = ∅) ∧
    (∀ i, (inside : i < 6) → keys.count ≤ i → keys.slots[i] = 0) ∧ (keys = .empty ↔ held = ∅) ∧
    Checked.Slots.afterAll {} changes = .ok (.ofKeys keys) ∧
    (Checked.Slots.ofKeys keys).used = .ok keys.toList ∧
    (∀ code, (Checked.Slots.ofKeys keys).insert code = .ok (keys.admits code, .ofKeys (keys.insert code))) ∧
    ∀ code, (Checked.Slots.ofKeys keys).erase code = .ok (.ofKeys (keys.erase code)) := by
  intro keys held
  have stands : keys.StandsFor held := standsFor_empty.afterAll changes
  have sound := stands.sound
  have most : keys.toList.length ≤ 6 := sound.length_toList.trans_le sound.fits
  have none : keys.isEmpty = true ↔ held = ∅ := by
    rw [isEmpty, beq_iff_eq, stands.count_eq_card, Finset.card_eq_zero]
  have run : Checked.Slots.afterAll {} changes = .ok (.ofKeys keys) :=
    Checked.Slots.afterAll_ok sound_empty changes
  exact ⟨sound.distinct, most, stands.toFinset_toList, stands.admits_eq_false_iff, stands.contains_iff,
    stands.count_eq_card, none, stands.padded, stands.eq_empty_iff, run, Checked.Slots.used_ok sound,
    Checked.Slots.insert_ok sound, Checked.Slots.erase_ok sound⟩

end Autotype
