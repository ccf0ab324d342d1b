/-!
# Modifier masks and key codes

A keyboard names its keys by usage codes. The eight modifier keys are not among them: which of them are
held is a mask of one bit each, and a device that only needs one side takes the left one.
-/

namespace Autotype

/-! ## Modifiers -/

namespace Modifier

def none : UInt8 := 0x00
def ctrlLeft : UInt8 := 0x01
def shiftLeft : UInt8 := 0x02
def altLeft : UInt8 := 0x04
def guiLeft : UInt8 := 0x08
def ctrlRight : UInt8 := 0x10
def shiftRight : UInt8 := 0x20
def altRight : UInt8 := 0x40
def guiRight : UInt8 := 0x80

-- a device that needs only one side takes the left one
def ctrl : UInt8 := ctrlLeft
def shift : UInt8 := shiftLeft
def alt : UInt8 := altLeft
def gui : UInt8 := guiLeft

end Modifier

/-! ## Keys -/

namespace Key

-- the other letters follow in the order of the alphabet
def a : UInt8 := 0x04
def enter : UInt8 := 0x28
def esc : UInt8 := 0x29
def backspace : UInt8 := 0x2A
def tab : UInt8 := 0x2B
def space : UInt8 := 0x2C
def capsLock : UInt8 := 0x39
def f1 : UInt8 := 0x3A
def f2 : UInt8 := 0x3B
def f3 : UInt8 := 0x3C
def f4 : UInt8 := 0x3D
def f5 : UInt8 := 0x3E
def f6 : UInt8 := 0x3F
def f7 : UInt8 := 0x40
def f8 : UInt8 := 0x41
def f9 : UInt8 := 0x42
def f10 : UInt8 := 0x43
def f11 : UInt8 := 0x44
def f12 : UInt8 := 0x45
def insert : UInt8 := 0x49
def home : UInt8 := 0x4A
def pageUp : UInt8 := 0x4B
def delete : UInt8 := 0x4C
def endKey : UInt8 := 0x4D
def pageDown : UInt8 := 0x4E
def arrowRight : UInt8 := 0x4F
def arrowLeft : UInt8 := 0x50
def arrowDown : UInt8 := 0x51
def arrowUp : UInt8 := 0x52

end Key

end Autotype
