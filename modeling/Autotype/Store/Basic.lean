import Autotype.Checksum
import Autotype.Store.Header
import Autotype.Store.Medium

/-!
# The store

The store is a medium together with the header as it was last read or committed. Single cells and
blocks can be read and written at any address: what lies outside reads as erased and is not written,
and a write that would change nothing does not reach the medium. Committing writes the header and takes
it over; raw writes to the header cells are not noticed until the header is read again
(`Store.refresh`).
-/

namespace Autotype

/-- A medium and what is known of the script on it. -/
structure Store (μ : Type) where
  medium : μ
  /-- The header as it was last read, committed or invalidated. -/
  header : Header
  deriving DecidableEq

namespace Store

variable {μ : Type} [Medium μ]

/-! ## Cells -/

/-- The number of addresses that have a cell. -/
def size (s : Store μ) : Nat :=
  Medium.size s.medium

/-- The content of one address. -/
def readByte (s : Store μ) (a : Nat) : UInt8 :=
  if a < s.size then Medium.read s.medium a else erased

/-- Gives one address a new content, unless it lies outside or holds that content already. -/
def writeByte (s : Store μ) (a : Nat) (v : UInt8) : Store μ :=
  if a < s.size ∧ Medium.read s.medium a ≠ v then
    { s with medium := Medium.write s.medium a v }
  else s

/-- The contents of `n` addresses from `a` on. -/
def readBlock (s : Store μ) (a n : Nat) : Bytes :=
  (List.range n).map fun i => s.readByte (a + i)

/-- Writes bytes to the addresses from `a` on, one after the other. -/
def writeBlock (s : Store μ) (a : Nat) : Bytes → Store μ
  | [] => s
  | b :: bs => (s.writeByte a b).writeBlock (a + 1) bs

/-- Makes the writes so far last. -/
def flush (s : Store μ) : Store μ :=
  { s with medium := Medium.flush s.medium }

/-! ## The header -/

/-- The header as the cells hold it now. -/
def storedHeader (s : Store μ) : Header :=
  .decode (.ofFn fun i => s.readByte i.val)

def refresh (s : Store μ) : Store μ :=
  { s with header := s.storedHeader }

/-- The store on a medium, with the header read from it. -/
def mount (m : μ) : Store μ :=
  refresh { medium := m, header := {} }

/-- Writes a header and takes it over. -/
def commit (s : Store μ) (h : Header) : Store μ :=
  { s.writeBlock 0 h.encode.toList with header := h }

/-- Gives up the script: only its length, in the cells and in the header, becomes zero. -/
def invalidate (s : Store μ) : Store μ :=
  let cleared := s.writeBlock Header.lengthOffset (Word.bytes 0)
  { cleared with header := { s.header with length := 0 } }

/-- Whether there is a script to run. -/
def hasScript (s : Store μ) : Bool :=
  s.header.isValid

/-- The number of script bytes, zero if there is no script. -/
def scriptLength (s : Store μ) : UInt16 :=
  if s.hasScript then s.header.length else 0

/-- The flags kept with the script, zero if there is no script. -/
def flags (s : Store μ) : UInt8 :=
  if s.hasScript then s.header.flags else 0

/-- How long to wait before typing the script, in milliseconds, zero if there is no script. -/
def initialDelay (s : Store μ) : UInt32 :=
  if s.hasScript then s.header.delay.toUInt32 * Header.delayUnit else 0

/-! ## The script region -/

def scriptByte (s : Store μ) (offset : Nat) : UInt8 :=
  s.readByte (scriptStart + offset)

def script (s : Store μ) (length : Nat) : Bytes :=
  (List.range length).map s.scriptByte

/-- The checksum of the first bytes of the script region. -/
def scriptChecksum (s : Store μ) (length : Nat) : UInt16 :=
  Checksum.ofBytes (s.script length)

/-- Whether a script of this length has this checksum; no script has a length outside the region. -/
def verify (s : Store μ) (length : Nat) (checksum : UInt16) : Bool :=
  (0 < length && length ≤ maxScript) && s.scriptChecksum length == checksum

/-! ## What the operations do to the cells -/

theorem size_le (s : Store μ) : s.size ≤ storeSize :=
  Nat.min_le_right _ _

theorem readByte_of_inside {s : Store μ} {a : Nat} (inside : a < s.size) :
    s.readByte a = Medium.read s.medium a :=
  if_pos inside

theorem readByte_of_beyond {s : Store μ} {a : Nat} (beyond : s.size ≤ a) : s.readByte a = erased :=
  if_neg (Nat.not_lt.mpr beyond)

theorem writeByte_of_beyond {s : Store μ} {a : Nat} (v : UInt8) (beyond : s.size ≤ a) :
    s.writeByte a v = s :=
  if_neg fun there => absurd there.1 (Nat.not_lt.mpr beyond)

@[simp] theorem header_writeByte (s : Store μ) (a : Nat) (v : UInt8) :
    (s.writeByte a v).header = s.header := by
  unfold writeByte; split <;> rfl

@[simp] theorem header_writeBlock (s : Store μ) (a : Nat) (bs : Bytes) :
    (s.writeBlock a bs).header = s.header := by
  induction bs generalizing s a with
  | nil => rfl
  | cons b bs ih => simp [writeBlock, ih]

@[simp] theorem header_commit (s : Store μ) (h : Header) : (s.commit h).header = h :=
  rfl

@[simp] theorem hasScript_invalidate (s : Store μ) : s.invalidate.hasScript = false := by
  simp [invalidate, hasScript, Header.isValid]

variable [LawfulMedium μ]

@[simp] theorem size_writeByte (s : Store μ) (a : Nat) (v : UInt8) :
    (s.writeByte a v).size = s.size := by
  unfold writeByte
  split
  · simp [size, Medium.size, LawfulMedium.capacity_write]
  · rfl

@[simp] theorem size_writeBlock (s : Store μ) (a : Nat) (bs : Bytes) :
    (s.writeBlock a bs).size = s.size := by
  induction bs generalizing s a with
  | nil => rfl
  | cons b bs ih => simp [writeBlock, ih]

/-- After a write, an address inside the store holds what was written and the others what they did. -/
theorem readByte_writeByte (s : Store μ) (a b : Nat) (v : UInt8) :
    (s.writeByte a v).readByte b = if a = b ∧ a < s.size then v else s.readByte b := by
  by_cases inside : a < s.size
  · by_cases same : Medium.read s.medium a = v
    · have unchanged : s.writeByte a v = s := by simp [writeByte, same]
      rw [unchanged]
      split
      · next h => rw [← h.1, readByte, if_pos inside, same]
      · rfl
    · have written : s.writeByte a v = { s with medium := Medium.write s.medium a v } := by
        simp [writeByte, same, inside]
      have sized : (s.writeByte a v).size = s.size := size_writeByte s a v
      by_cases here : a = b
      · subst here
        rw [if_pos ⟨rfl, inside⟩, readByte, sized, if_pos inside, written]
        exact LawfulMedium.read_write_self _ _ _ inside
      · rw [if_neg (fun h => here h.1), readByte, readByte, sized, written]
        simp only [LawfulMedium.read_write_of_ne _ _ _ _ inside here]
  · have unchanged : s.writeByte a v = s := by simp [writeByte, inside]
    simp [unchanged, inside]

/-- After a block was written, its addresses inside the store hold its bytes and the others what they
did. -/
theorem readByte_writeBlock (s : Store μ) (a b : Nat) (bs : Bytes) :
    (s.writeBlock a bs).readByte b =
      if h : a ≤ b ∧ b - a < bs.length ∧ b < s.size then bs.get ⟨b - a, h.2.1⟩ else s.readByte b := by
  induction bs generalizing s a with
  | nil => simp [writeBlock]
  | cons v bs ih =>
    rw [writeBlock, ih, size_writeByte]
    by_cases here : a = b
    · subst here
      rw [dif_neg (by omega), readByte_writeByte]
      by_cases inside : a < s.size <;> simp [inside]
    · rw [readByte_writeByte, if_neg (fun h => here h.1)]
      by_cases later : a + 1 ≤ b ∧ b - (a + 1) < bs.length ∧ b < s.size
      · have there : a ≤ b ∧ b - a < (v :: bs).length ∧ b < s.size := by
          simp only [List.length_cons]; omega
        have next : b - a = (b - (a + 1)) + 1 := by omega
        rw [dif_pos later, dif_pos there]
        simp [next]
      · have not_there : ¬(a ≤ b ∧ b - a < (v :: bs).length ∧ b < s.size) := by
          simp only [List.length_cons]; omega
        rw [dif_neg later, dif_neg not_there]

end Store

end Autotype
