import Autotype.Engine.Basic
import Autotype.Script.Basic
import Autotype.Store.Memory

/-!
# Committed scripts

What it means that a store holds a script, for whoever reads the store: its header is valid and announces
the script's length, and the script region begins with the script's bytes.
-/

namespace Autotype

variable {μ : Type} [Medium μ]

/-- A block is made of some bytes just if each of its cells holds its byte. -/
theorem Store.readBlock_eq_iff {s : Store μ} {start : Nat} {bytes : Bytes} :
    s.readBlock start bytes.length = bytes ↔
      ∀ i, (inside : i < bytes.length) → s.readByte (start + i) = bytes[i] := by
  constructor
  · intro same i inside
    have cell := congrArg (fun bs : Bytes => bs[i]?) same
    simp only [readBlock, List.getElem?_map, List.getElem?_range inside, Option.map_some,
      List.getElem?_eq_getElem inside, Option.some.injEq] at cell
    exact cell
  · intro cells
    apply List.ext_getElem
    · rw [readBlock, List.length_map, List.length_range]
    · intro i _ inside
      simp only [readBlock, List.getElem_map, List.getElem_range]
      exact cells i inside

/-- The script region begins with bytes that its cells hold one after the other. -/
theorem Store.script_eq {s : Store μ} {bytes : Bytes}
    (cells : ∀ i, (inside : i < bytes.length) → s.readByte (scriptStart + i) = bytes[i]) :
    s.script bytes.length = bytes :=
  readBlock_eq_iff.mpr cells

/-- Whether a store holds a committed script with these bytes. -/
structure Store.Holds (s : Store μ) (bytes : Bytes) : Prop where
  /-- The header is that of a script that can be run. -/
  valid : s.hasScript = true
  length : s.header.length.toNat = bytes.length
  /-- These bytes stand in the script region. -/
  script : s.script bytes.length = bytes

namespace Store.Holds

variable {s : Store μ} {bytes : Bytes}

theorem scriptByte (holds : s.Holds bytes) {i : Nat} (hi : i < bytes.length) :
    s.scriptByte i = bytes[i] :=
  readBlock_eq_iff.mp holds.script i hi

theorem scriptLength (holds : s.Holds bytes) : s.scriptLength.toNat = bytes.length := by
  rw [Store.scriptLength, if_pos holds.valid, holds.length]

/-- An engine finds the bytes at the beginning of its script. -/
theorem hasAt (holds : s.Holds bytes) : Script.HasAt ⟨bytes.length, s.scriptByte⟩ 0 bytes := by
  intro j hj
  rw [Nat.zero_add]
  exact ⟨hj, holds.scriptByte hj⟩

/-- A script that is held under its own checksum is verified. -/
theorem verify (holds : s.Holds bytes) (checksum : s.header.checksum = Checksum.ofBytes bytes) :
    s.verify s.scriptLength.toNat s.header.checksum = true := by
  obtain ⟨-, positive, fits⟩ := s.header.isValid_iff.mp holds.valid
  rw [holds.length] at positive fits
  simp only [Store.verify, Store.scriptChecksum, holds.scriptLength, holds.script, checksum, positive,
    fits, decide_true, Bool.and_self, beq_self_eq_true]

end Store.Holds

/-- The header under which bytes are committed as a script. -/
def Header.ofScript (bytes : Bytes) : Header where
  version := currentVersion
  length := .ofNat bytes.length
  checksum := Checksum.ofBytes bytes

/-- A store, erased before, on which bytes were committed as a script. -/
def Store.ofScript (bytes : Bytes) : Store Memory :=
  .commit (.writeBlock (.mount {}) scriptStart bytes) (.ofScript bytes)

end Autotype
