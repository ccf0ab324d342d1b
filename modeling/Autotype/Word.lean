/-!
# Bytes and two-byte words

Everything the device stores or exchanges is a string of bytes. Quantities of two bytes are kept with
the low byte first, in the header, in requests and replies and in the operands of a script alike, so
the split is stated once, here. The main facts are that `Word.ofBytes` and the pair `Word.low`,
`Word.high` undo each other.
-/

namespace Autotype

/-- A string of bytes, first byte first. -/
abbrev Bytes := List UInt8

namespace Word

/-- The word with the given low and high byte. -/
def ofBytes (low high : UInt8) : UInt16 :=
  .ofNat (low.toNat + 256 * high.toNat)

/-- The low byte of a word. -/
def low (w : UInt16) : UInt8 :=
  .ofNat w.toNat

/-- The high byte of a word. -/
def high (w : UInt16) : UInt8 :=
  .ofNat (w.toNat / 256)

/-- A word as it is stored and sent: low byte first. -/
def bytes (w : UInt16) : Bytes :=
  [low w, high w]

@[simp] theorem toNat_ofBytes (l h : UInt8) : (ofBytes l h).toNat = l.toNat + 256 * h.toNat := by
  have hl := l.toNat_lt
  have hh := h.toNat_lt
  simp only [ofBytes, UInt16.toNat_ofNat']
  omega

@[simp] theorem toNat_low (w : UInt16) : (low w).toNat = w.toNat % 256 := by
  simp [low]

@[simp] theorem toNat_high (w : UInt16) : (high w).toNat = w.toNat / 256 := by
  have hw := w.toNat_lt
  simp only [high, UInt8.toNat_ofNat']
  omega

@[simp] theorem ofBytes_low_high (w : UInt16) : ofBytes (low w) (high w) = w := by
  apply UInt16.toNat_inj.mp
  simp only [toNat_ofBytes, toNat_low, toNat_high]
  omega

@[simp] theorem low_ofBytes (l h : UInt8) : low (ofBytes l h) = l := by
  have hl := l.toNat_lt
  apply UInt8.toNat_inj.mp
  simp only [toNat_low, toNat_ofBytes]
  omega

@[simp] theorem high_ofBytes (l h : UInt8) : high (ofBytes l h) = h := by
  have hl := l.toNat_lt
  apply UInt8.toNat_inj.mp
  simp only [toNat_high, toNat_ofBytes]
  omega

@[simp] theorem length_bytes (w : UInt16) : (bytes w).length = 2 :=
  rfl

end Word

end Autotype
