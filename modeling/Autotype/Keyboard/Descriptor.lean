import Autotype.Word

/-!
# Report descriptors

What the device tells a host about the layout of its reports: the keyboard's eight bytes, of which the
first is a mask of eight modifiers, the second is constant and the last six are key codes, with five
lights in the other direction; and the programmer's plain blocks of 32 bytes.
-/

namespace Autotype.Descriptor

/-- The descriptor of the keyboard. -/
def keyboard : Bytes :=
  [ 0x05, 0x01,       -- usage page: generic desktop
    0x09, 0x06,       -- usage: keyboard
    0xA1, 0x01,       -- collection: application
    0x05, 0x07,       --   usage page: keys
    0x19, 0xE0,       --   from left control
    0x29, 0xE7,       --   to right GUI
    0x15, 0x00,       --   values from 0
    0x25, 0x01,       --   to 1
    0x75, 0x01,       --   of one bit
    0x95, 0x08,       --   eight of them
    0x81, 0x02,       --   input: a variable each
    0x95, 0x01,       --   one
    0x75, 0x08,       --   of eight bits
    0x81, 0x01,       --   input: constant
    0x05, 0x08,       --   usage page: lights
    0x19, 0x01,       --   from num lock
    0x29, 0x05,       --   to kana
    0x95, 0x05,       --   five
    0x75, 0x01,       --   of one bit
    0x91, 0x02,       --   output: a variable each
    0x95, 0x01,       --   one
    0x75, 0x03,       --   of three bits
    0x91, 0x01,       --   output: constant
    0x05, 0x07,       --   usage page: keys
    0x19, 0x00,       --   from 0
    0x29, 0xFF,       --   to 255
    0x15, 0x00,       --   values from 0
    0x26, 0xFF, 0x00, --   to 255
    0x95, 0x06,       --   six
    0x75, 0x08,       --   of eight bits
    0x81, 0x00,       --   input: an array
    0xC0 ]            -- end of the collection

/-- The descriptor of the programmer. -/
def programmer : Bytes :=
  [ 0x06, 0x00, 0xFF, -- usage page: defined by the vendor
    0x09, 0x01,       -- usage
    0xA1, 0x01,       -- collection: application
    0x15, 0x00,       --   values from 0
    0x26, 0xFF, 0x00, --   to 255
    0x75, 0x08,       --   of eight bits
    0x95, 0x20,       --   32 of them
    0x09, 0x01,       --   usage
    0x81, 0x02,       --   input: a variable each
    0x09, 0x01,       --   usage
    0x91, 0x02,       --   output: a variable each
    0x09, 0x01,       --   usage
    0xB1, 0x02,       --   feature: a variable each
    0xC0 ]            -- end of the collection

end Autotype.Descriptor
