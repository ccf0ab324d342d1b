import Autotype.Keyboard.Usage

/-!
# Keyboard layouts

A layout says which key types a character and whether shift has to be held with it. The US layout is
given the way a keyboard shows it: each key has a legend, and most have a second one for shift. Text is
ASCII; a character without a legend cannot be typed.
-/

namespace Autotype

/-- A key press that types a character. -/
structure KeyStroke where
  keycode : UInt8
  shift : Bool
  deriving DecidableEq, Repr

/-- The modifiers that are held while the key is tapped. -/
def KeyStroke.modifiers (stroke : KeyStroke) : UInt8 :=
  if stroke.shift then Modifier.shift else Modifier.none

/-- How characters are typed. -/
abbrev Layout := UInt8 → Option KeyStroke

/-- A key with the characters on it. -/
structure Keycap where
  code : UInt8
  /-- The character that the key types alone. -/
  plain : Char
  /-- The character that it types with shift, if there is one. -/
  shifted : Option Char := none
  deriving DecidableEq, Repr

namespace Keycap

/-- The stroke on this key that types a character, if there is one. -/
def strokeFor? (key : Keycap) (c : Char) : Option KeyStroke :=
  if key.plain = c then some ⟨key.code, false⟩
  else if key.shifted = some c then some ⟨key.code, true⟩
  else none

/-- The keys of the letters, in the order of the alphabet. -/
def letters : List Keycap :=
  (List.range 26).map fun i =>
    ⟨Key.a + .ofNat i, .ofNat ('a'.toNat + i), some (.ofNat ('A'.toNat + i))⟩

/-- The keys of the digits and the signs above them. -/
def digits : List Keycap :=
  [⟨0x1E, '1', '!'⟩, ⟨0x1F, '2', '@'⟩, ⟨0x20, '3', '#'⟩, ⟨0x21, '4', '$'⟩, ⟨0x22, '5', '%'⟩,
    ⟨0x23, '6', '^'⟩, ⟨0x24, '7', '&'⟩, ⟨0x25, '8', '*'⟩, ⟨0x26, '9', '('⟩, ⟨0x27, '0', ')'⟩]

/-- The keys of the remaining signs. -/
def signs : List Keycap :=
  [⟨0x2D, '-', '_'⟩, ⟨0x2E, '=', '+'⟩, ⟨0x2F, '[', '\x7b'⟩, ⟨0x30, ']', '\x7d'⟩, ⟨0x31, '\\', '|'⟩,
    ⟨0x33, ';', ':'⟩, ⟨0x34, '\x27', '\x22'⟩, ⟨0x35, '\x60', '~'⟩, ⟨0x36, ',', '<'⟩, ⟨0x37, '.', '>'⟩,
    ⟨0x38, '/', '?'⟩]

/-- The keys that type blanks and control characters; shift changes nothing about them. -/
def controls : List Keycap :=
  [⟨Key.enter, '\n', none⟩, ⟨Key.esc, '\x1b', none⟩, ⟨Key.backspace, '\x08', none⟩,
    ⟨Key.tab, '\t', none⟩, ⟨Key.space, ' ', none⟩]

/-- The keys of a US keyboard that type a character. -/
def us : List Keycap :=
  letters ++ digits ++ signs ++ controls

end Keycap

def Layout.us : Layout := fun b =>
  Keycap.us.findSome? (·.strokeFor? (.ofNat b.toNat))

end Autotype
