import Autotype.Word

/-!
# Script instructions

A script is a flat string of bytes. Each instruction is an opcode followed by its operands, words with
the low byte first:

```text
00             finish
01 ms:2        delay
02 code        key down
03 code        key up
04 mask        modifiers
05 code        tap
06 count len   loop over the len bytes that follow
07 mask code   combo
08 len chars   text
```

`Instr.encode` writes an instruction down.
-/

namespace Autotype

/-- An instruction. -/
inductive Instr where
  /-- Let everything go and end the script. -/
  | finish
  /-- Wait for a number of milliseconds. -/
  | delay (ms : UInt16)
  /-- Hold a key. -/
  | keyDown (code : UInt8)
  /-- Let a key go. -/
  | keyUp (code : UInt8)
  /-- Hold exactly these modifiers. -/
  | modifiers (mask : UInt8)
  /-- Press and release a key. -/
  | tap (code : UInt8)
  /-- Run the bytes that follow several times. -/
  | loop (count length : UInt8)
  /-- Press and release a key with exactly these modifiers held. -/
  | combo (mask code : UInt8)
  /-- Type characters. -/
  | text (chars : Bytes)
  deriving DecidableEq, Repr

/-! ## Opcodes -/

namespace Opcode

@[match_pattern] def finish : UInt8 := 0x00

@[match_pattern] def delay : UInt8 := 0x01

@[match_pattern] def keyDown : UInt8 := 0x02

@[match_pattern] def keyUp : UInt8 := 0x03

@[match_pattern] def modifiers : UInt8 := 0x04

@[match_pattern] def tap : UInt8 := 0x05

@[match_pattern] def loop : UInt8 := 0x06

@[match_pattern] def combo : UInt8 := 0x07

@[match_pattern] def text : UInt8 := 0x08

end Opcode

/-- An instruction as it is laid out in a script. The length of a text is one byte. -/
def Instr.encode : Instr → Bytes
  | .finish => [Opcode.finish]
  | .delay ms => Opcode.delay :: Word.bytes ms
  | .keyDown code => [Opcode.keyDown, code]
  | .keyUp code => [Opcode.keyUp, code]
  | .modifiers mask => [Opcode.modifiers, mask]
  | .tap code => [Opcode.tap, code]
  | .loop count length => [Opcode.loop, count, length]
  | .combo mask code => [Opcode.combo, mask, code]
  | .text chars => Opcode.text :: .ofNat chars.length :: chars

/-- Whether an instruction can be laid out: the length of a text has to fit into one byte. -/
def Instr.Fits : Instr → Prop
  | .text chars => chars.length < 256
  | _ => True

end Autotype
