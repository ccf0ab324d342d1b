import Autotype.Proofs.Capacity
import Autotype.Proofs.Checked
import Autotype.Proofs.Journal
import Autotype.Proofs.Ledger

/-!
# Blocks, cell by cell

A block may reach past the store, and past the last address. Its bytes inside the store are written and the
others are dropped; none of them comes round to the first cells, though an address is a word. To say what
reaches the medium, the medium is put behind a meter (`Metered`), which notes the address of each write and
changes nothing else. A block costs one write for each cell whose content it changes and no more, so the
second time it costs nothing (`Store.block_access_exact`).
-/

namespace Autotype

/-! ## Writes that change nothing -/

namespace Store

section

variable {μ : Type} [Medium μ]

theorem writeByte_of_same {s : Store μ} {a : Nat} {v : UInt8} (same : a < s.size → s.readByte a = v) :
    s.writeByte a v = s := by
  refine if_neg ?_
  rintro ⟨inside, other⟩
  have content := same inside
  rw [readByte, if_pos inside] at content
  exact other content

/-- A block that is there already is not written. -/
theorem writeBlock_of_same {s : Store μ} {start : Nat} {bs : Bytes}
    (same : ∀ i, (inside : i < bs.length) → start + i < s.size → s.readByte (start + i) = bs[i]) :
    s.writeBlock start bs = s := by
  induction bs generalizing start with
  | nil => rfl
  | cons b bs ih =>
    have first : s.writeByte start b = s := writeByte_of_same (same 0 (Nat.succ_pos _))
    rw [writeBlock, first]
    refine ih fun i inside cell => ?_
    have next : start + 1 + i = start + (i + 1) := by omega
    rw [next] at cell ⊢
    exact same (i + 1) (Nat.succ_lt_succ inside) cell

/-- A block is there once it was written. -/
theorem writeBlock_writeBlock [LawfulMedium μ] (s : Store μ) (start : Nat) (bs : Bytes) :
    (s.writeBlock start bs).writeBlock start bs = s.writeBlock start bs := by
  refine writeBlock_of_same fun i inside cell => ?_
  rw [size_writeBlock] at cell
  rw [readByte_writeBlock_add s start bs inside, if_pos cell]

end

end Store

/-! ## A meter before the medium -/

/-- A medium that notes the addresses of the writes that reach it, the latest first. -/
structure Metered (μ : Type) where
  medium : μ
  writes : List Nat := []

namespace Metered

variable {μ : Type} [Medium μ]

instance : Medium (Metered μ) where
  capacity m := Medium.capacity m.medium
  read m a := Medium.read m.medium a
  write m a v := { medium := Medium.write m.medium a v, writes := a :: m.writes }
  flush m := { m with medium := Medium.flush m.medium }

instance [LawfulMedium μ] : LawfulMedium (Metered μ) where
  read_write_self m := LawfulMedium.read_write_self m.medium
  read_write_of_ne m := LawfulMedium.read_write_of_ne m.medium
  capacity_write m := LawfulMedium.capacity_write m.medium
  read_flush m := LawfulMedium.read_flush m.medium
  capacity_flush m := LawfulMedium.capacity_flush m.medium

end Metered

namespace Store

variable {μ : Type} [Medium μ]

/-- The store with a meter before its medium, which has noted nothing yet. -/
def metered (s : Store μ) : Store (Metered μ) where
  medium := { medium := s.medium }
  header := s.header

/-- The store without the meter. -/
def unmetered (s : Store (Metered μ)) : Store μ where
  medium := s.medium.medium
  header := s.header

/-- The addresses of the writes that reached the medium, the latest first. -/
def writes (s : Store (Metered μ)) : List Nat :=
  s.medium.writes

theorem unmetered_writeByte (s : Store (Metered μ)) (a : Nat) (v : UInt8) :
    (s.writeByte a v).unmetered = s.unmetered.writeByte a v :=
  apply_ite unmetered _ _ _

theorem unmetered_writeBlock (s : Store (Metered μ)) (start : Nat) (bs : Bytes) :
    (s.writeBlock start bs).unmetered = s.unmetered.writeBlock start bs := by
  induction bs generalizing s start with
  | nil => rfl
  | cons b bs ih => rw [writeBlock, ih, unmetered_writeByte, writeBlock]

variable [LawfulMedium μ]

theorem count_writes_writeByte (s : Store (Metered μ)) (a : Nat) (v : UInt8) (x : Nat) :
    (s.writeByte a v).writes.count x =
      s.writes.count x + if (s.writeByte a v).readByte x = s.readByte x then 0 else 1 := by
  by_cases same : a < s.size → s.readByte a = v
  · rw [writeByte_of_same same, if_pos rfl, Nat.add_zero]
  · obtain ⟨inside, other⟩ := Classical.not_imp.mp same
    have noted : (s.writeByte a v).writes = a :: s.writes := by
      rw [readByte, if_pos inside] at other
      rw [writeByte, if_pos ⟨inside, other⟩]
      rfl
    rw [noted]
    by_cases here : a = x
    · subst here
      have now : (s.writeByte a v).readByte a = v := by
        rw [readByte_writeByte, if_pos ⟨rfl, inside⟩]
      rw [List.count_cons_self, now, if_neg (Ne.symm other)]
    · have kept : (s.writeByte a v).readByte x = s.readByte x := by
        rw [readByte_writeByte, if_neg fun there => here there.1]
      rw [List.count_cons_of_ne here, kept, if_pos rfl, Nat.add_zero]

/-- A block costs one write for each cell whose content it changes. -/
theorem count_writes_writeBlock (s : Store (Metered μ)) (start : Nat) (bs : Bytes) (x : Nat) :
    (s.writeBlock start bs).writes.count x =
      s.writes.count x + if (s.writeBlock start bs).readByte x = s.readByte x then 0 else 1 := by
  induction bs generalizing s start with
  | nil => rw [writeBlock, if_pos rfl, Nat.add_zero]
  | cons b bs ih =>
    rw [writeBlock, ih, count_writes_writeByte]
    -- the first byte and the others do not change the same cell
    by_cases first : start = x
    · have later : ((s.writeByte start b).writeBlock (start + 1) bs).readByte x =
          (s.writeByte start b).readByte x := by
        rw [readByte_writeBlock, dif_neg (by omega)]
      rw [later, if_pos rfl, Nat.add_zero]
    · have kept : (s.writeByte start b).readByte x = s.readByte x := by
        rw [readByte_writeByte, if_neg fun there => first there.1]
      rw [kept, if_pos rfl, Nat.add_zero]

/-! ## Whole blocks -/

theorem read_writeBlock_of_beyond {s : Store μ} {x : Nat} (beyond : s.size ≤ x) (start : Nat) (bs : Bytes) :
    Medium.read (s.writeBlock start bs).medium x = Medium.read s.medium x := by
  induction bs generalizing s start with
  | nil => rfl
  | cons b bs ih =>
    rw [writeBlock, ih (by rwa [size_writeByte])]
    by_cases here : start = x
    · rw [writeByte_of_beyond b (here ▸ beyond)]
    · exact read_writeByte_of_ne here

/-- A block of any length, at any address: with every address a word, the bytes that fall into the store stand
in their cells afterwards, all other cells keep their content, and none is written but those that change,
once each, so nothing is written when the block is written again. The same cells are read, and what lies
beyond the store is erased. -/
theorem block_access_exact (s : Store μ) (start : UInt16) :
    (∀ data : Bytes, ∃ t : Store (Metered μ),
      Checked.writeBlock s.metered start.toNat 0 data = .ok t ∧
      Checked.writeBlock s start.toNat 0 data = .ok t.unmetered ∧
      (∀ i, (inside : i < data.length) → start.toNat + i < s.size →
        Medium.read t.medium (start.toNat + i) = data[i]) ∧
      (∀ x, x < start.toNat ∨ start.toNat + data.length ≤ x ∨ s.size ≤ x →
        Medium.read t.medium x = Medium.read s.medium x) ∧
      (∀ x, t.writes.count x =
        if x < s.size ∧ Medium.read t.medium x ≠ Medium.read s.medium x then 1 else 0) ∧
      Checked.writeBlock t start.toNat 0 data = .ok t) ∧
    ∀ n : Nat, ∃ bytes : Bytes, Checked.readBlock s start.toNat 0 n = .ok bytes ∧ bytes.length = n ∧
      ∀ i, (inside : i < bytes.length) →
        bytes[i] = if start.toNat + i < s.size then Medium.read s.medium (start.toNat + i) else erased := by
  constructor
  · intro data
    have size : (s.metered.writeBlock start.toNat data).size = s.size := size_writeBlock _ _ _
    refine ⟨s.metered.writeBlock start.toNat data, Checked.writeBlock_ok _ _ _ _, ?_, ?_, ?_, ?_, ?_⟩
    · rw [unmetered_writeBlock]
      exact Checked.writeBlock_ok _ _ _ _
    · intro i inside cell
      rw [← readByte_of_inside (size.symm ▸ cell), readByte_writeBlock_add _ _ _ inside]
      exact if_pos cell
    · intro x other
      rcases other with before | behind | beyond
      · exact read_writeBlock_of_outside (.inl before)
      · exact read_writeBlock_of_outside (.inr behind)
      · exact read_writeBlock_of_beyond (s := s.metered) beyond start.toNat data
    · intro x
      rw [count_writes_writeBlock]
      refine (Nat.zero_add _).trans ?_
      by_cases cell : x < s.size
      · rw [readByte_of_inside (size.symm ▸ cell), readByte_of_inside (s := s.metered) cell]
        simp only [cell, true_and, ne_eq, ite_not]
        rfl
      · have beyond := Nat.le_of_not_lt cell
        rw [readByte_of_beyond (size.symm ▸ beyond), readByte_of_beyond (s := s.metered) beyond, if_pos rfl,
          if_neg fun there => cell there.1]
    · rw [Checked.writeBlock_ok]
      exact congrArg _ (writeBlock_writeBlock _ _ _)
  · intro n
    refine ⟨s.readBlock start.toNat n, Checked.readBlock_ok _ _ _ _, s.length_readBlock _ _, ?_⟩
    intro i inside
    simp only [readBlock, List.getElem_map, List.getElem_range]
    rfl

/-- Of three bytes at the end of ten erased cells, the second is there already and the third is dropped. -/
theorem block_access_exact_tenCells :
    let s := mount ({ capacity := 10 } : Memory)
    (∃ t, Checked.writeBlock s.metered (8 : UInt16).toNat 0 [0x2A, 0xFF, 0x2B] = .ok t ∧
      Medium.read t.medium 8 = 0x2A ∧ t.writes.count 8 = 1 ∧ t.writes.count 9 = 0 ∧ t.writes.count 10 = 0 ∧
      Checked.writeBlock t (8 : UInt16).toNat 0 [0x2A, 0xFF, 0x2B] = .ok t) ∧
    ∃ bytes, Checked.readBlock s (0xFFFF : UInt16).toNat 0 2 = .ok bytes ∧ bytes.length = 2 ∧
      ∀ i, (inside : i < bytes.length) → bytes[i] = 0xFF := by
  intro s
  constructor
  · obtain ⟨t, written, -, stored, others, counts, again⟩ := (block_access_exact s 8).1 [0x2A, 0xFF, 0x2B]
    have first : Medium.read t.medium 8 = 0x2A := stored 0 (by decide) (by decide)
    have second : Medium.read t.medium 9 = 0xFF := stored 1 (by decide) (by decide)
    refine ⟨t, written, first, ?_, ?_, ?_, again⟩
    · rw [counts, first]
      decide +kernel
    · rw [counts, second]
      decide +kernel
    · rw [counts, others 10 (by decide)]
      decide +kernel
  · obtain ⟨bytes, read, long, contents⟩ := (block_access_exact s 0xFFFF).2 2
    refine ⟨bytes, read, long, fun i inside => ?_⟩
    have beyond : ¬(0xFFFF : UInt16).toNat + i < s.size :=
      Nat.not_lt.mpr (Nat.le_trans s.size_le (Nat.le_trans (by decide) (Nat.le_add_right _ i)))
    rw [contents i inside, if_neg beyond]
    rfl

end Store

end Autotype
