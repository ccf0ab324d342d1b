import Autotype.Proofs.Committed
import Autotype.Proofs.Overlay
import Autotype.Store.Flash

/-!
# Chips

A flush can go in four ways, according to which operations of the chip fail (`FlashStore.Flushes`). As long
as none does, a chip takes on whatever image is flushed to it, and whoever opens it later finds the contents
that the store had then. `Store.holds_ofScript` is the case of a chip on which a script was committed.
-/

namespace Autotype

/-! ## Flushing -/

namespace Flash

theorem erase_cases (f : Flash) :
    (0 < f.faults.erase ∧ ∃ g, f.erase = (false, g) ∧ g.sector = f.sector) ∨
    (f.faults.erase = 0 ∧ ∃ g, f.erase = (true, g) ∧ g.faults = f.faults ∧
      g.sector = .blank sectorSize) := by
  rcases Nat.eq_zero_or_pos f.faults.erase with works | fails
  · refine .inr ⟨works, f.erase.2, ?_, ?_, ?_⟩
    · simp only [erase, works]
      rfl
    · simp only [erase, works, Nat.zero_sub]
      rw [← works]
    · simp only [erase, works]
      rfl
  · refine .inl ⟨fails, f.erase.2, ?_, ?_⟩
    · simp only [erase, fails, decide_true, Bool.not_true]
    · simp only [erase, fails, decide_true, if_true]

theorem program_cases (f : Flash) (image : Cells storeSize) :
    (0 < f.faults.program ∧ ∃ g, f.program image = (false, g) ∧ g.sector = f.sector) ∨
    (f.faults.program = 0 ∧ ∃ g, f.program image = (true, g) ∧ g.faults = f.faults ∧
      g.sector = f.programmed image) := by
  rcases Nat.eq_zero_or_pos f.faults.program with works | fails
  · refine .inr ⟨works, (f.program image).2, ?_, ?_, ?_⟩
    · simp only [program, works]
      rfl
    · simp only [program, works, Nat.zero_sub]
      rw [← works]
    · simp only [program, works]
      rfl
  · refine .inl ⟨fails, (f.program image).2, ?_, ?_⟩
    · simp only [program, fails, decide_true, Bool.not_true]
    · simp only [program, fails, decide_true, if_true]

/-- All bits of an erased cell can be programmed. -/
theorem image_programmed {f g : Flash} {image : Cells storeSize} (blank : f.sector = .blank sectorSize)
    (sector : g.sector = f.programmed image) : g.image = image := by
  have clean : ∀ v : UInt8, erased &&& v = v := by
    intro v
    have all : erased = -1 := rfl
    rw [all, UInt8.neg_one_and]
  apply Vector.ext
  intro i inside
  have within : i < sectorSize := Nat.lt_trans inside (by decide)
  rw [Flash.image, Vector.getElem_ofFn]
  show g.sector[i] = image[i]
  have cell : g.sector[i] = (f.programmed image)[i] := by rw [sector]
  rw [cell, programmed, Vector.getElem_ofFn, dif_pos inside, blank]
  show (Cells.blank sectorSize)[i] &&& image[i] = image[i]
  rw [Cells.blank, Vector.getElem_replicate, clean]

end Flash

namespace FlashStore

/-- How a flush can go: there is nothing to do, or the sector cannot be erased, or it was erased and then the
image cannot be programmed, or all works. -/
inductive Flushes (f : FlashStore) : FlashStore → Prop
  | rests (clean : f.dirty = false) : Flushes f f
  | unerased {g : Flash} (dirty : f.dirty = true) (fails : 0 < f.flash.faults.erase)
    (sector : g.sector = f.flash.sector) : Flushes f { f with flash := g }
  | unprogrammed {g : Flash} (dirty : f.dirty = true) (erases : f.flash.faults.erase = 0)
    (fails : 0 < f.flash.faults.program) (sector : g.sector = .blank sectorSize) :
    Flushes f { f with flash := g }
  | persists {g : Flash} (dirty : f.dirty = true) (erases : f.flash.faults.erase = 0)
    (programs : f.flash.faults.program = 0) (faults : g.faults = f.flash.faults)
    (image : g.image = f.image) : Flushes f { f with flash := g, dirty := false }

theorem flushes_flush (f : FlashStore) : f.Flushes f.flush := by
  unfold flush
  cases dirty : f.dirty with
  | false => exact .rests dirty
  | true =>
    rcases f.flash.erase_cases with ⟨fails, g, failed, sector⟩ | ⟨erases, g, worked, faults, blank⟩
    · simp only [failed, if_true]
      exact dirty ▸ .unerased dirty fails sector
    · simp only [worked, if_true]
      rcases g.program_cases f.image with ⟨fails, h, failed, sector⟩ | ⟨programs, h, worked, faults', sector⟩
      · rw [faults] at fails
        simp only [failed]
        exact dirty ▸ .unprogrammed dirty erases fails (sector.trans blank)
      · rw [faults] at programs
        simp only [worked]
        exact .persists dirty erases programs (faults'.trans faults) (Flash.image_programmed blank sector)

/-- Whether the chip works, and holds the image unless that was written to. -/
structure Settled (f : FlashStore) : Prop where
  works : f.flash.faults = {}
  clean : f.dirty = false → f.flash.image = f.image

/-- A chip that cannot be read counts as a blank one. -/
theorem image_load_cases (f : Flash) :
    (f.faults.read = 0 ∧ (load f).image = f.image) ∨
    (0 < f.faults.read ∧ (load f).image = .blank storeSize) := by
  rcases Nat.eq_zero_or_pos f.faults.read with read | fails
  · refine .inl ⟨read, ?_⟩
    simp only [load, Flash.read, read]
    rfl
  · refine .inr ⟨fails, ?_⟩
    simp only [load, Flash.read, fails]
    rfl

theorem image_load {f : Flash} (read : f.faults.read = 0) : (load f).image = f.image := by
  rcases image_load_cases f with ⟨-, loaded⟩ | ⟨fails, -⟩
  · exact loaded
  · exact absurd read (Nat.ne_of_gt fails)

theorem settled_load {f : Flash} (works : f.faults = {}) : (load f).Settled := by
  have read : f.faults.read = 0 := congrArg FlashFaults.read works
  refine ⟨?_, fun _ => (image_load read).symm⟩
  simp only [load, Flash.read, works]

theorem Settled.write {f : FlashStore} (settled : f.Settled) (a : Nat) (v : UInt8) :
    (f.write a v).Settled := by
  refine ⟨settled.works, ?_⟩
  intro clean
  cases clean

/-- A flush brings the image to a chip that works. -/
theorem Settled.flush {f : FlashStore} (settled : f.Settled) :
    f.flush.Settled ∧ f.flush.flash.image = f.image := by
  have flushes := f.flushes_flush
  generalize f.flush = after at flushes ⊢
  cases flushes with
  | rests clean => exact ⟨settled, settled.clean clean⟩
  | unerased _ fails _ | unprogrammed _ _ fails _ =>
    rw [settled.works] at fails
    cases fails
  | persists _ _ _ faults image => exact ⟨⟨faults.trans settled.works, fun _ => image⟩, image⟩

end FlashStore

/-! ## Opening -/

namespace Store

/-- The store that is found on a chip. -/
def ofFlash (f : Flash) : Store FlashStore :=
  .mount (.load f)

theorem header_ofFlash (f : Flash) : (ofFlash f).header = (ofFlash f).storedHeader :=
  header_mount (ofFlash f)

theorem size_flashStore (s : Store FlashStore) : s.size = storeSize :=
  Nat.min_self storeSize

theorem readByte_of_image {s t : Store FlashStore} (same : s.medium.image = t.medium.image) :
    s.readByte = t.readByte := by
  funext a
  rw [readByte, readByte, size_flashStore, size_flashStore]
  simp only [Medium.read, FlashStore.read, same]

/-- A chip that works and holds the image of a store is opened with the contents of that store. -/
theorem readByte_ofFlash {f : Flash} (works : f.faults = {}) {s : Store FlashStore}
    (image : f.image = s.medium.image) : (ofFlash f).readByte = s.readByte :=
  readByte_of_image ((FlashStore.image_load (congrArg FlashFaults.read works)).trans image)

end Store

namespace Flash

/-- A chip on which bytes stand, and nothing else. -/
def ofBytes (bytes : Bytes) : Flash where
  sector := (Cells.blank sectorSize).load bytes

/-- A chip on which bytes were committed as a script. -/
def ofScript (bytes : Bytes) : Flash :=
  .ofBytes ((Header.ofScript bytes).encode.toList ++ bytes)

theorem image_ofBytes (bytes : Bytes) {a : Nat} (inside : a < storeSize) :
    (ofBytes bytes).image[a] = bytes.getD a erased := by
  have within : a < sectorSize := Nat.lt_trans inside (by decide)
  rw [image, Vector.getElem_ofFn]
  show ((Cells.blank sectorSize).load bytes)[a] = bytes.getD a erased
  rw [Cells.load, Vector.getElem_ofFn, List.getD_eq_getElem?_getD]
  by_cases written : a < bytes.length
  · rw [dif_pos (by simpa using written), List.getElem?_eq_getElem written, Option.getD_some]
    simp
  · rw [dif_neg (by simpa using written), List.getElem?_eq_none (Nat.le_of_not_lt written),
      Option.getD_none]
    show (Cells.blank sectorSize)[a] = erased
    rw [Cells.blank, Vector.getElem_replicate]

end Flash

namespace Store

theorem readByte_ofBytes (bytes : Bytes) {a : Nat} (inside : a < storeSize) :
    (ofFlash (.ofBytes bytes)).readByte a = bytes.getD a erased := by
  rw [readByte, size_flashStore, if_pos inside]
  show FlashStore.read (.load (.ofBytes bytes)) a = bytes.getD a erased
  have works : (Flash.ofBytes bytes).faults.read = 0 := rfl
  rw [FlashStore.read, dif_pos inside]
  simp only [FlashStore.image_load works, Flash.image_ofBytes bytes inside]

/-- A script is found on a chip on which it was committed. -/
theorem holds_ofScript {bytes : Bytes} (some : 0 < bytes.length) (room : bytes.length ≤ maxScript) :
    (ofFlash (.ofScript bytes)).header = .ofScript bytes ∧ (ofFlash (.ofScript bytes)).Holds bytes := by
  have numbers := geometry
  have long : (Header.ofScript bytes).encode.toList.length = headerSize := Vector.length_toList
  have cell : ∀ a < storeSize, (ofFlash (.ofScript bytes)).readByte a =
      ((Header.ofScript bytes).encode.toList ++ bytes).getD a erased :=
    fun a inside => readByte_ofBytes _ inside
  have header : (ofFlash (.ofScript bytes)).header = .ofScript bytes := by
    rw [header_ofFlash, storedHeader_eq_iff]
    intro a inside
    rw [cell a (by omega), List.getD_eq_getElem?_getD, List.getElem?_append_left (by omega),
      List.getElem?_eq_getElem (by omega), Option.getD_some, Vector.getElem_toList]
  have length : (Header.ofScript bytes).length.toNat = bytes.length :=
    Nat.mod_eq_of_lt (Nat.lt_of_le_of_lt room (by decide))
  refine ⟨header, ⟨?_, ?_, ?_⟩⟩
  · rw [hasScript, header, Header.isValid_iff, length]
    exact ⟨rfl, some, room⟩
  · rw [header, length]
  · refine script_eq fun i inside => ?_
    rw [cell _ (by omega), List.getD_eq_getElem?_getD, List.getElem?_append_right (by omega), long,
      Nat.add_sub_cancel_left, List.getElem?_eq_getElem inside, Option.getD_some]

end Store

end Autotype
