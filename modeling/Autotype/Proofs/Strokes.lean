import Autotype.Keyboard.Layout
import Autotype.Keyboard.Report
import Mathlib.Data.List.GetD
import Mathlib.Data.List.Nodup

/-!
# What a host makes of reports

A host that is given reports takes a key as struck when it is in a report but was not in the one before, and
takes the shift key from the same report (`Report.strokes`). Which character was meant it finds out with the
layout, the other way round (`Layout.charOf?`), which is possible because no two characters of the US layout
have the same stroke. A key that goes down besides others and comes up again is struck once, and leaves the
others as they were.
-/

namespace Autotype

/-! ## A key that goes down and comes up -/

namespace KeySet

variable {keys : KeySet} {code : UInt8}

/-- Whether the slots that are not in use are zero, as they are at first. -/
def Padded (keys : KeySet) : Prop :=
  ∀ i, (inside : i < maxKeys) → keys.count ≤ i → keys.slots[i] = 0

theorem length_toList (keys : KeySet) : keys.toList.length = min keys.count maxKeys := by
  simp [toList]

theorem count_lt_of_room (room : keys.toList.length < maxKeys) : keys.count < maxKeys := by
  rw [length_toList] at room
  omega

theorem toList_insert_of_room (absent : code ∉ keys.toList) (room : keys.toList.length < maxKeys) :
    (keys.insert code).toList = keys.toList ++ [code] := by
  rw [toList_insert, if_neg]
  rintro (there | full)
  · exact absent there
  · exact absurd (count_lt_of_room room) (Nat.not_lt.mpr full)

/-- A key that was not held goes down and comes up: the slot that it took is zero now. -/
theorem erase_insert (absent : code ∉ keys.toList) (room : keys.toList.length < maxKeys) :
    (keys.insert code).erase code = { keys with slots := keys.slots.setIfInBounds keys.count 0 } := by
  have below := count_lt_of_room room
  have size : keys.toList.length = keys.count := by
    rw [length_toList]
    omega
  have slot : (keys.toList ++ [code]).idxOf? code = some keys.count := by
    rw [List.idxOf?_eq_some_iff]
    refine ⟨by rw [List.length_append, size]; exact Nat.lt_succ_self _, ?_, ?_⟩
    · exact List.getElem_concat_length size.symm _
    · intro j before same
      rw [List.getElem_append_left (by omega)] at same
      exact absent (same ▸ List.getElem_mem _)
  have down : keys.insert code =
      { slots := keys.slots.set keys.count code, count := keys.count + 1 } := by
    rw [insert, if_neg (fun there => absent ((contains_iff keys code).mp there)), dif_pos below]
  rw [erase, toList_insert_of_room absent room, slot]
  simp only [down, Nat.add_sub_cancel]
  congr 1
  ext i inside
  by_cases last : keys.count = i
  · simp [last]
  · simp [last]

theorem toList_erase_insert (absent : code ∉ keys.toList) (room : keys.toList.length < maxKeys) :
    ((keys.insert code).erase code).toList = keys.toList := by
  rw [erase_insert absent room]
  simp only [toList, Vector.toList_setIfInBounds]
  exact List.take_set_of_le (Nat.le_refl _)

theorem Padded.erase_insert (padded : keys.Padded) (absent : code ∉ keys.toList)
    (room : keys.toList.length < maxKeys) : (keys.insert code).erase code = keys := by
  have below := count_lt_of_room room
  have zero := padded keys.count below (Nat.le_refl _)
  have same : keys.slots.setIfInBounds keys.count 0 = keys.slots := by
    rw [← zero]
    ext i inside
    by_cases last : keys.count = i
    · simp [last]
    · simp [last]
  rw [KeySet.erase_insert absent room, same]

end KeySet

/-! ## Keystrokes -/

namespace Report

/-- The keys of a report are those held, as long as they have a code. -/
theorem pressed_ofState (modifiers : UInt8) (keys : KeySet) :
    (ofState modifiers keys).pressed = keys.toList.filter (· != 0) := by
  have shown : (ofState modifiers keys).keycodes.toList =
      keys.toList ++ List.replicate (maxKeys - keys.toList.length) 0 := by
    have size := keys.length_toList
    refine List.ext_getElem (by simp; omega) fun i inside inside' => ?_
    simp only [ofState, Vector.toList_ofFn, List.getElem_ofFn]
    by_cases held : i < keys.toList.length
    · rw [List.getElem_append_left held, List.getD_eq_getElem _ _ held]
    · rw [List.getElem_append_right (by omega), List.getElem_replicate, List.getD_eq_default]
      omega
  rw [pressed, shown, List.filter_append]
  simp

/-- Whether a report shows just these keys, apart from a key without a code. -/
def ShowsKeys (r : Report) (keys : KeySet) : Prop :=
  ∀ code, code ∈ r.pressed ↔ code ∈ keys.toList ∧ code ≠ 0

theorem showsKeys_ofState (modifiers : UInt8) (keys : KeySet) : (ofState modifiers keys).ShowsKeys keys := by
  intro code
  rw [pressed_ofState, List.mem_filter, bne_iff_ne]

theorem isEmpty_iff (r : Report) : r.isEmpty = true ↔ r.modifiers = 0 ∧ r.pressed = [] := by
  rw [isEmpty, pressed, Bool.and_eq_true, beq_iff_eq, List.all_eq_true, List.filter_eq_nil_iff]
  simp only [beq_iff_eq, bne_iff_ne, ne_eq, not_not]

/-- A report shows nothing just if nothing is held but a key without a code. -/
theorem isEmpty_ofState_iff (modifiers : UInt8) (keys : KeySet) :
    (ofState modifiers keys).isEmpty = true ↔ modifiers = 0 ∧ ∀ code ∈ keys.toList, code = 0 := by
  rw [isEmpty_iff, pressed_ofState]
  simp [ofState]

/-- The keys that are in a report but were not in the one before, each with the shift key of the report. -/
def strokesAfter (before r : Report) : List KeyStroke :=
  (r.pressed.filter (· ∉ before.pressed)).map fun code => ⟨code, r.modifiers &&& Modifier.shift != 0⟩

/-- The keys that are struck in reports which come after a report. -/
def strokes (before : Report) : List Report → List KeyStroke
  | [] => []
  | r :: rs => strokesAfter before r ++ strokes r rs

theorem strokes_append (before : Report) (rs rs' : List Report) :
    strokes before (rs ++ rs') = strokes before rs ++ strokes (rs.getLastD before) rs' := by
  induction rs generalizing before with
  | nil => rfl
  | cons r rs ih => rw [List.cons_append, strokes, strokes, ih, List.append_assoc, List.getLastD_cons]

theorem strokesAfter_of_subset {before r : Report} (subset : r.pressed ⊆ before.pressed) :
    strokesAfter before r = [] := by
  have nothing : r.pressed.filter (· ∉ before.pressed) = [] := by
    simpa [List.filter_eq_nil_iff] using fun code mem => subset mem
  rw [strokesAfter, nothing]
  rfl

/-- A key that goes down besides those shown, and comes up again, is struck once. -/
theorem strokes_tap {before : Report} {keys : KeySet} (shown : before.ShowsKeys keys) (modifiers : UInt8)
    {code : UInt8} (named : code ≠ 0) (absent : code ∉ keys.toList) (room : keys.toList.length < maxKeys) :
    strokes before [ofState modifiers (keys.insert code), ofState modifiers ((keys.insert code).erase code)] =
      [⟨code, modifiers &&& Modifier.shift != 0⟩] := by
  have others : (keys.toList.filter (· != 0)).filter (· ∉ before.pressed) = [] := by
    rw [List.filter_eq_nil_iff]
    intro other mem
    have there := (shown other).mpr (by simpa [List.mem_filter] using mem)
    simpa using there
  have new : code ∉ before.pressed := fun there => absent ((shown code).mp there).1
  have down : strokesAfter before (ofState modifiers (keys.insert code)) =
      [⟨code, modifiers &&& Modifier.shift != 0⟩] := by
    rw [strokesAfter, pressed_ofState, KeySet.toList_insert_of_room absent room, List.filter_append,
      List.filter_append, others]
    simp [named, new, ofState]
  have up : strokesAfter (ofState modifiers (keys.insert code))
      (ofState modifiers ((keys.insert code).erase code)) = [] := by
    refine strokesAfter_of_subset ?_
    rw [pressed_ofState, pressed_ofState, KeySet.toList_erase_insert absent room,
      KeySet.toList_insert_of_room absent room, List.filter_append]
    exact List.subset_append_left _ _
  rw [strokes, strokes, strokes, down, up]
  rfl

end Report

/-! ## From a keystroke to its character -/

theorem byte_eq_of_char_eq {b c : UInt8} (same : Char.ofNat b.toNat = Char.ofNat c.toNat) : b = c := by
  have code : ∀ a : UInt8, (Char.ofNat a.toNat).toNat = a.toNat := by
    intro a
    have valid : a.toNat.isValidChar := .inl (Nat.lt_trans a.toNat_lt (by decide))
    rw [Char.ofNat, dif_pos valid]
    rfl
  apply UInt8.toNat_inj.mp
  rw [← code b, ← code c, same]

/-- A stroke on a key types the legend that it stands for. -/
theorem Keycap.legend_of_strokeFor? {key : Keycap} {c : Char} {stroke : KeyStroke}
    (types : key.strokeFor? c = some stroke) :
    stroke.keycode = key.code ∧ (if stroke.shift then key.shifted else some key.plain) = some c := by
  unfold strokeFor? at types
  split at types
  · next plain =>
    cases types
    exact ⟨rfl, congrArg some plain⟩
  · split at types
    · next shifted =>
      cases types
      exact ⟨rfl, shifted⟩
    · cases types

namespace Layout

variable {layout : Layout} {stroke : KeyStroke}

/-- The character that a stroke types. -/
def charOf? (layout : Layout) (stroke : KeyStroke) : Option UInt8 :=
  ((List.range 256).map UInt8.ofNat).find? fun c => layout c == some stroke

/-- Whether a stroke tells which character was typed, and is made on a key that has a code. -/
structure Readable (layout : Layout) : Prop where
  unique : ∀ {b c stroke}, layout b = some stroke → layout c = some stroke → b = c
  named : ∀ {c stroke}, layout c = some stroke → stroke.keycode ≠ 0

theorem Readable.charOf?_eq (readable : layout.Readable) {c : UInt8} (types : layout c = some stroke) :
    layout.charOf? stroke = some c := by
  have listed : c ∈ (List.range 256).map UInt8.ofNat :=
    List.mem_map.mpr ⟨c.toNat, List.mem_range.mpr c.toNat_lt, UInt8.ofNat_toNat⟩
  cases found : layout.charOf? stroke with
  | none =>
    have missed := List.find?_eq_none.mp found c listed
    rw [types] at missed
    simp at missed
  | some b =>
    have types' := List.find?_some found
    rw [readable.unique (beq_iff_eq.mp types') types]

/-- The characters of the strokes that a text takes are those of its characters that can be typed. -/
theorem Readable.map_charOf? (readable : layout.Readable) (chars : Bytes) :
    (chars.filterMap layout).map layout.charOf? =
      (chars.filter fun c => (layout c).isSome).map some := by
  induction chars with
  | nil => rfl
  | cons c cs ih =>
    cases types : layout c with
    | none => simp [types, ih]
    | some stroke => simp [types, ih, readable.charOf?_eq types]

theorem readable_us : us.Readable := by
  have apart : (Keycap.us.map Keycap.code).Nodup := by decide
  have coded : ∀ key ∈ Keycap.us, key.code ≠ 0 := by decide
  constructor
  · intro b c stroke types types'
    obtain ⟨key, mem, on⟩ := List.exists_of_findSome?_eq_some types
    obtain ⟨key', mem', on'⟩ := List.exists_of_findSome?_eq_some types'
    obtain ⟨code, legend⟩ := Keycap.legend_of_strokeFor? on
    obtain ⟨code', legend'⟩ := Keycap.legend_of_strokeFor? on'
    have same : key = key' := List.inj_on_of_nodup_map apart mem mem' (code.symm.trans code')
    rw [← same, legend] at legend'
    exact byte_eq_of_char_eq (Option.some.inj legend')
  · intro c stroke types
    obtain ⟨key, mem, on⟩ := List.exists_of_findSome?_eq_some types
    rw [(Keycap.legend_of_strokeFor? on).1]
    exact coded key mem

end Layout

end Autotype
