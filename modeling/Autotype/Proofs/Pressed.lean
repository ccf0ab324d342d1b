import Autotype.Proofs.Strokes
import Mathlib.Data.List.Perm.Basic

/-!
# The keys that a report shows

Keys go down and come up, and now and then all of them are let go (`KeyChange`). Whatever the codes are, the
slots in use hold no code twice and are six at most (`KeySet.Sound`): a key that comes up is taken out of the
list once, and what is left only changes places. A report of the keys leaves its unused slots zero, so it
cannot tell a key with the code zero from a slot without a key. It shows all the other keys once each, in the
order of their slots, and shows nothing just if no modifier and none of those is held
(`Report.pressed_afterAll`).
-/

namespace Autotype

/-- What can happen to the keys that are held. -/
inductive KeyChange where
  | insert (code : UInt8)
  | erase (code : UInt8)
  | clear
  deriving DecidableEq

namespace KeySet

variable {keys : KeySet}

def after (keys : KeySet) : KeyChange → KeySet
  | .insert code => keys.insert code
  | .erase code => keys.erase code
  | .clear => .empty

/-- The keys held after changes, the first one first. -/
def afterAll (keys : KeySet) (changes : List KeyChange) : KeySet :=
  changes.foldl after keys

/-- The slots in use are there, and no code is in two of them. -/
structure Sound (keys : KeySet) : Prop where
  fits : keys.count ≤ maxKeys
  distinct : keys.toList.Nodup

theorem sound_empty : KeySet.empty.Sound where
  fits := Nat.zero_le _
  distinct := List.nodup_nil

theorem Sound.length_toList (sound : keys.Sound) : keys.toList.length = keys.count := by
  rw [KeySet.length_toList, Nat.min_eq_left sound.fits]

theorem Sound.isEmpty_iff (sound : keys.Sound) : keys.isEmpty = true ↔ keys.toList = [] := by
  rw [isEmpty, beq_iff_eq, ← sound.length_toList, List.length_eq_zero_iff]

theorem Sound.insert (sound : keys.Sound) (code : UInt8) : (keys.insert code).Sound := by
  constructor
  · rw [KeySet.insert]
    split
    · exact sound.fits
    · split
      · assumption
      · exact sound.fits
  · rw [toList_insert]
    split
    · exact sound.distinct
    · next new =>
      rw [← List.concat_eq_append]
      exact sound.distinct.concat fun there => new (.inl there)

/-! ## A key comes up -/

/-- Taking an item out of a list and putting the last one in its place changes only the order. -/
theorem take_set_perm_eraseIdx {α : Type} {l : List α} {i last : Nat} {a : α} (inside : i < l.length)
    (size : l.length = last + 1) (final : l[last]? = some a) :
    ((l.set i a).take last).Perm (l.eraseIdx i) := by
  have final' : (l.set i a)[last]? = some a := by
    rw [List.getElem?_set, if_pos inside, final, ite_self]
  have whole : (l.set i a).take last ++ [a] = l.set i a := by
    have cut := List.take_add_one (l := l.set i a) (i := last)
    rw [final', ← size, List.take_of_length_le (Nat.le_of_eq List.length_set)] at cut
    exact cut.symm
  have moved := List.set_perm_cons_eraseIdx inside a
  rw [← whole] at moved
  exact (List.perm_append_comm.trans moved).cons_inv

theorem Sound.toList_erase_perm (sound : keys.Sound) (code : UInt8) :
    (keys.erase code).toList.Perm (keys.toList.erase code) := by
  rw [List.erase_eq_eraseIdx, KeySet.erase]
  cases found : keys.toList.idxOf? code with
  | none => exact List.Perm.refl _
  | some i =>
    obtain ⟨inside, -⟩ := List.idxOf?_eq_some_iff.mp found
    have size := sound.length_toList
    have fits := sound.fits
    have last : keys.toList[keys.count - 1]? = some (keys.slots.getD (keys.count - 1) 0) := by
      have there : keys.count - 1 < maxKeys := by omega
      rw [toList, List.getElem?_take_of_lt (by omega), Vector.getElem?_toList,
        Vector.getElem?_eq_getElem there, Vector.getD, Array.getD, dif_pos (by simpa using there)]
      rfl
    refine List.Perm.trans (.of_eq ?_) (take_set_perm_eraseIdx inside (by omega) last)
    simp only [toList, Vector.toList_setIfInBounds]
    rw [List.take_set_of_le (Nat.le_refl _), List.take_set, List.take_set, List.take_take,
      Nat.min_eq_left (Nat.sub_le _ _)]

theorem Sound.erase (sound : keys.Sound) (code : UInt8) : (keys.erase code).Sound := by
  constructor
  · rw [KeySet.erase]
    split
    · exact sound.fits
    · exact Nat.le_trans (Nat.sub_le _ _) sound.fits
  · exact (sound.toList_erase_perm code).nodup_iff.mpr (sound.distinct.erase code)

/-! ## Any changes -/

theorem Sound.after (sound : keys.Sound) (change : KeyChange) : (keys.after change).Sound := by
  cases change with
  | insert code => exact sound.insert code
  | erase code => exact sound.erase code
  | clear => exact sound_empty

theorem Sound.afterAll (sound : keys.Sound) (changes : List KeyChange) : (keys.afterAll changes).Sound := by
  induction changes generalizing keys with
  | nil => exact sound
  | cons change changes ih => exact ih (sound.after change)

end KeySet

namespace Report

variable {keys : KeySet}

/-- A report shows the keys held as they are, unless one of them has no code. -/
theorem pressed_ofState_eq_iff (modifiers : UInt8) (keys : KeySet) :
    (ofState modifiers keys).pressed = keys.toList ↔ keys.contains 0 = false := by
  rw [pressed_ofState, List.filter_eq_self, Bool.eq_false_iff, Ne, KeySet.contains_iff]
  constructor
  · intro named held
    exact absurd (named 0 held) (by decide)
  · intro absent code held
    rw [bne_iff_ne]
    rintro rfl
    exact absent held

theorem isEmpty_ofState_of_named (modifiers : UInt8) (sound : keys.Sound) (named : keys.contains 0 = false) :
    (ofState modifiers keys).isEmpty = true ↔ modifiers = 0 ∧ keys.isEmpty = true := by
  rw [isEmpty_iff, (pressed_ofState_eq_iff modifiers keys).mpr named, sound.isEmpty_iff]
  rfl

/-- Whatever went down and came up, a report shows the keys held that have a code, each of them once and in
the order of their slots, and shows nothing if no modifier and none of these keys is held. So it shows just
the keys held if none of them is without a code. -/
theorem pressed_afterAll (changes : List KeyChange) (modifiers : UInt8) :
    let keys := KeySet.empty.afterAll changes
    let r := ofState modifiers keys
    (∀ code, code ∈ r.pressed ↔ keys.contains code = true ∧ code ≠ 0) ∧ r.pressed.Nodup ∧
      r.pressed.Sublist keys.toList ∧
      (r.isEmpty = true ↔ modifiers = 0 ∧ ∀ code, keys.contains code = true → code = 0) ∧
      (r.pressed = keys.toList ↔ keys.contains 0 = false) ∧
      (keys.contains 0 = false → (r.isEmpty = true ↔ modifiers = 0 ∧ keys.isEmpty = true)) := by
  intro keys r
  have sound : keys.Sound := KeySet.sound_empty.afterAll changes
  have shown : r.pressed = keys.toList.filter (· != 0) := pressed_ofState modifiers keys
  refine ⟨fun code => ?_, ?_, ?_, ?_, pressed_ofState_eq_iff modifiers keys,
    isEmpty_ofState_of_named modifiers sound⟩
  · rw [KeySet.contains_iff]
    exact showsKeys_ofState modifiers keys code
  · rw [shown]
    exact sound.distinct.filter _
  · rw [shown]
    exact List.filter_sublist
  · simp only [KeySet.contains_iff]
    exact isEmpty_ofState_iff modifiers keys

/-- A key with the code zero is held, but cannot be told from a slot without a key. -/
theorem not_pressed_iff_contains :
    ¬ ∀ (changes : List KeyChange) (modifiers : UInt8),
      let keys := KeySet.empty.afterAll changes
      let r := ofState modifiers keys
      (∀ code, code ∈ r.pressed ↔ keys.contains code = true) ∧ r.pressed.Nodup ∧
        (r.isEmpty = true ↔ modifiers = 0 ∧ keys.isEmpty = true) := by
  intro shows
  have shown := ((shows [.insert 0] 0).1 0).mpr (by decide +kernel)
  exact absurd shown (by decide +kernel)

end Report

end Autotype
