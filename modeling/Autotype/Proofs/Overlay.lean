import Autotype.Store.Basic

/-!
# Contents after a write

A write lays a string over the contents of the cells from an address on and leaves the others as they
were. `overlaid` says so for contents of any kind; the operations of a store are then equations between
contents, and the header that the cells hold is a matter of the first eight of them.
-/

namespace Autotype

/-- Where things lie, in numbers. -/
theorem geometry : headerSize = 8 ∧ scriptStart = 8 ∧ maxScript = 503 ∧ storeSize = 512 :=
  ⟨rfl, rfl, rfl, rfl⟩

/-- Contents with a string laid over them from an address on. -/
def overlaid {α : Type} (contents : Nat → α) (start : Nat) (new : List α) : Nat → α := fun a =>
  if start ≤ a then new.getD (a - start) (contents a) else contents a

section

variable {α β : Type} {contents : Nat → α} {start a : Nat} {new : List α}

theorem overlaid_of_lt (before : a < start) : overlaid contents start new a = contents a :=
  if_neg (Nat.not_le.mpr before)

theorem overlaid_of_ge (behind : start + new.length ≤ a) :
    overlaid contents start new a = contents a := by
  have beyond : new.length ≤ a - start := by omega
  rw [overlaid, if_pos (by omega), List.getD_eq_getElem?_getD, List.getElem?_eq_none beyond,
    Option.getD_none]

theorem overlaid_add {i : Nat} (inside : i < new.length) :
    overlaid contents start new (start + i) = new[i] := by
  rw [overlaid, if_pos (Nat.le_add_right start i), Nat.add_sub_cancel_left,
    List.getD_eq_getElem?_getD, List.getElem?_eq_getElem inside, Option.getD_some]

theorem overlaid_zero (inside : a < new.length) : overlaid contents 0 new a = new[a] := by
  have there : overlaid contents 0 new (0 + a) = new[a] := overlaid_add inside
  rwa [Nat.zero_add] at there

@[simp] theorem overlaid_nil : overlaid contents start [] = contents := by
  funext a
  by_cases before : a < start
  · exact overlaid_of_lt before
  · exact overlaid_of_ge (Nat.le_of_not_lt before)

/-- Contents that hold a string from an address on, and elsewhere what other contents do, are those with the
string laid over them. -/
theorem eq_overlaid {contents' : Nat → α}
    (inside : ∀ i, (within : i < new.length) → contents' (start + i) = new[i])
    (outside : ∀ a, a < start ∨ start + new.length ≤ a → contents' a = contents a) :
    contents' = overlaid contents start new := by
  funext a
  by_cases before : a < start
  · rw [overlaid_of_lt before, outside a (.inl before)]
  · obtain ⟨i, rfl⟩ := Nat.exists_eq_add_of_le (Nat.le_of_not_lt before)
    by_cases within : i < new.length
    · rw [overlaid_add within, inside i within]
    · have behind : start + new.length ≤ start + i := by omega
      rw [overlaid_of_ge behind, outside _ (.inr behind)]

/-- Strings that lie side by side can be laid down as one. -/
theorem overlaid_overlaid (more : List α) :
    overlaid (overlaid contents start new) (start + new.length) more =
      overlaid contents start (new ++ more) := by
  funext a
  by_cases before : a < start
  · rw [overlaid_of_lt (by omega), overlaid_of_lt before, overlaid_of_lt before]
  · obtain ⟨i, rfl⟩ := Nat.exists_eq_add_of_le (Nat.le_of_not_lt before)
    by_cases inside : i < new.length
    · rw [overlaid_of_lt (by omega), overlaid_add inside,
        overlaid_add (by rw [List.length_append]; omega), List.getElem_append_left inside]
    · obtain ⟨j, rfl⟩ := Nat.exists_eq_add_of_le (Nat.le_of_not_lt inside)
      by_cases inside' : j < more.length
      · rw [← Nat.add_assoc, overlaid_add inside', Nat.add_assoc,
          overlaid_add (by rw [List.length_append]; omega),
          List.getElem_append_right (Nat.le_add_right _ _)]
        simp only [Nat.add_sub_cancel_left]
      · rw [overlaid_of_ge (by omega), overlaid_of_ge (by omega),
          overlaid_of_ge (by rw [List.length_append]; omega)]

/-- Below the new string it does not matter what the contents were. -/
theorem overlaid_congr {contents' : Nat → α}
    (outside : a < start ∨ start + new.length ≤ a → contents a = contents' a) :
    overlaid contents start new a = overlaid contents' start new a := by
  by_cases before : a < start
  · rw [overlaid_of_lt before, overlaid_of_lt before, outside (.inl before)]
  · obtain ⟨i, rfl⟩ := Nat.exists_eq_add_of_le (Nat.le_of_not_lt before)
    by_cases inside : i < new.length
    · rw [overlaid_add inside, overlaid_add inside]
    · have behind : start + new.length ≤ start + i := by omega
      rw [overlaid_of_ge behind, overlaid_of_ge behind, outside (.inr behind)]

/-- Contents can be counted from a later address on. -/
theorem overlaid_shift (origin : Nat) :
    overlaid contents (origin + start) new (origin + a) =
      overlaid (fun b => contents (origin + b)) start new a := by
  simp only [overlaid, Nat.add_le_add_iff_left, Nat.add_sub_add_left]

theorem overlaid_replicate {value : α} (same : contents a = value) (n : Nat) :
    overlaid contents start (.replicate n value) a = value := by
  by_cases before : a < start
  · rw [overlaid_of_lt before, same]
  · obtain ⟨i, rfl⟩ := Nat.exists_eq_add_of_le (Nat.le_of_not_lt before)
    by_cases inside : i < (List.replicate n value).length
    · rw [overlaid_add inside, List.getElem_replicate]
    · rw [overlaid_of_ge (by omega), same]

/-! Contents that are known for some cells, and for the others by default. -/

variable {known : Nat → Option α} (default : Nat → α)

theorem getD_overlaid_some (new : List α) :
    (overlaid known start (new.map some) a).getD (default a) =
      overlaid (fun b => (known b).getD (default b)) start new a := by
  by_cases before : a < start
  · rw [overlaid_of_lt before, overlaid_of_lt before]
  · obtain ⟨i, rfl⟩ := Nat.exists_eq_add_of_le (Nat.le_of_not_lt before)
    by_cases inside : i < new.length
    · rw [overlaid_add inside, overlaid_add (by rwa [List.length_map]), List.getElem_map,
        Option.getD_some]
    · rw [overlaid_of_ge (by rw [List.length_map]; omega), overlaid_of_ge (by omega)]

theorem getD_overlaid_none (new : List α) :
    (overlaid known start (.replicate new.length none) a).getD (overlaid default start new a) =
      overlaid (fun b => (known b).getD (default b)) start new a := by
  have long : (List.replicate new.length (none : Option α)).length = new.length :=
    List.length_replicate
  by_cases before : a < start
  · rw [overlaid_of_lt before, overlaid_of_lt before, overlaid_of_lt before]
  · obtain ⟨i, rfl⟩ := Nat.exists_eq_add_of_le (Nat.le_of_not_lt before)
    by_cases inside : i < new.length
    · rw [overlaid_add inside, overlaid_add inside, overlaid_add (by rwa [long]),
        List.getElem_replicate, Option.getD_none]
    · rw [overlaid_of_ge (by omega), overlaid_of_ge (by omega), overlaid_of_ge (by omega)]

end

namespace Store

variable {μ : Type} [Medium μ]

@[simp] theorem header_flush (s : Store μ) : s.flush.header = s.header := rfl

@[simp] theorem header_mount (s : Store μ) : (mount s.medium).header = s.storedHeader := rfl

/-- The cells hold a header just when the first eight of them hold its bytes. -/
theorem storedHeader_eq_iff {s : Store μ} {h : Header} :
    s.storedHeader = h ↔ ∀ a, (inside : a < headerSize) → s.readByte a = h.encode[a] := by
  constructor
  · rintro rfl a inside
    rw [storedHeader, Header.encode_decode, Vector.getElem_ofFn]
  · intro cells
    have raw : Vector.ofFn (fun i : Fin headerSize => s.readByte i.val) = h.encode := by
      apply Vector.ext
      intro a inside
      rw [Vector.getElem_ofFn, cells a inside]
    rw [storedHeader, raw, Header.decode_encode]

/-! ## What the operations do to the contents -/

variable [LawfulMedium μ]

theorem readByte_writeBlock_eq {s : Store μ} {start : Nat} {bs : Bytes}
    (fits : start + bs.length ≤ s.size) :
    (s.writeBlock start bs).readByte = overlaid s.readByte start bs := by
  funext a
  rw [readByte_writeBlock]
  by_cases before : a < start
  · rw [overlaid_of_lt before, dif_neg (by omega)]
  · obtain ⟨i, rfl⟩ := Nat.exists_eq_add_of_le (Nat.le_of_not_lt before)
    by_cases inside : i < bs.length
    · rw [overlaid_add inside, dif_pos ⟨by omega, by omega, by omega⟩, List.get_eq_getElem]
      simp only [Nat.add_sub_cancel_left]
    · rw [overlaid_of_ge (by omega), dif_neg (by omega)]

theorem readByte_commit {s : Store μ} (fits : headerSize ≤ s.size) (h : Header) :
    (s.commit h).readByte = overlaid s.readByte 0 h.encode.toList :=
  readByte_writeBlock_eq (by rwa [Vector.length_toList, Nat.zero_add])

/-- The header does not reach the script. -/
theorem scriptByte_commit {s : Store μ} (fits : headerSize ≤ s.size) (h : Header) (i : Nat) :
    (s.commit h).scriptByte i = s.scriptByte i := by
  rw [scriptByte, scriptByte, readByte_commit fits]
  refine overlaid_of_ge ?_
  rw [Vector.length_toList, Nat.zero_add]
  exact Nat.le_add_right scriptStart i

theorem readByte_invalidate {s : Store μ} (fits : headerSize ≤ s.size) :
    s.invalidate.readByte = overlaid s.readByte Header.lengthOffset (Word.bytes 0) := by
  refine readByte_writeBlock_eq (Nat.le_trans ?_ fits)
  decide

@[simp] theorem size_commit (s : Store μ) (h : Header) : (s.commit h).size = s.size :=
  size_writeBlock s 0 h.encode.toList

@[simp] theorem size_invalidate (s : Store μ) : s.invalidate.size = s.size :=
  size_writeBlock s Header.lengthOffset (Word.bytes 0)

@[simp] theorem size_flush (s : Store μ) : s.flush.size = s.size := by
  simp only [size, flush, Medium.size, LawfulMedium.capacity_flush]

@[simp] theorem readByte_flush (s : Store μ) : s.flush.readByte = s.readByte := by
  funext a
  show (if a < s.flush.size then Medium.read (Medium.flush s.medium) a else erased) = _
  rw [size_flush, LawfulMedium.read_flush]
  rfl

end Store

end Autotype
