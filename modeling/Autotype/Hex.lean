import Autotype.Word

/-!
# Bytes as hexadecimal text

Event logs and messages show bytes as lower-case hexadecimal text, two digits a byte, with nothing
between them. Reading such text back gives the bytes (`Hex.decode_encode`).
-/

namespace Autotype.Hex

def digit (n : Nat) : Char :=
  if n < 10 then .ofNat (48 + n) else .ofNat (87 + n)

def value? (c : Char) : Option Nat :=
  if '0' ≤ c ∧ c ≤ '9' then some (c.toNat - 48)
  else if 'a' ≤ c ∧ c ≤ 'f' then some (c.toNat - 87)
  else none

def ofByte (b : UInt8) : List Char :=
  [digit (b.toNat / 16), digit (b.toNat % 16)]

/-- A string of bytes as digits. -/
def digits (bytes : Bytes) : List Char :=
  bytes.flatMap ofByte

/-- The bytes that a string of digits stands for. -/
def ofDigits? : List Char → Option Bytes
  | [] => some []
  | [_] => none
  | c :: d :: rest =>
    match value? c, value? d, ofDigits? rest with
    | some hi, some lo, some bytes => some (.ofNat (16 * hi + lo) :: bytes)
    | _, _, _ => none

def encode (bytes : Bytes) : String :=
  .ofList (digits bytes)

/-- The bytes that a text stands for. -/
def decode (text : String) : Option Bytes :=
  ofDigits? text.toList

/-- The four digits of a word, as text: the high byte comes first. -/
def ofWord (w : UInt16) : String :=
  encode [Word.high w, Word.low w]

theorem value?_digit {n : Nat} (h : n < 16) : value? (digit n) = some n := by
  have table : ∀ n : Fin 16, value? (digit n) = some n.val := by decide
  exact table ⟨n, h⟩

theorem ofDigits?_digits (bytes : Bytes) : ofDigits? (digits bytes) = some bytes := by
  induction bytes with
  | nil => rfl
  | cons b bs ih =>
    have hb := b.toNat_lt
    have hi : value? (digit (b.toNat / 16)) = some (b.toNat / 16) := value?_digit (by omega)
    have lo : value? (digit (b.toNat % 16)) = some (b.toNat % 16) := value?_digit (by omega)
    have joined : 16 * (b.toNat / 16) + b.toNat % 16 = b.toNat := by omega
    simp only [digits] at ih
    simp [digits, ofByte, ofDigits?, hi, lo, ih, joined]

theorem decode_encode (bytes : Bytes) : decode (encode bytes) = some bytes := by
  simp [decode, encode, ofDigits?_digits]

end Autotype.Hex
