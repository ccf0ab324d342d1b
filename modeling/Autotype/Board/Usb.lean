import Autotype.Hex
import Autotype.Keyboard.Descriptor
import Autotype.Keyboard.Report
import Autotype.Programming.Request

/-!
# How the device presents itself

In each of its two lives the device tells the host another identity and another kind of reports.
-/

namespace Autotype

/-- What the device says it is. -/
structure UsbIdentity where
  vendor : UInt16 := 0x16C0
  product : UInt16
  manufacturer : String := "tinykb"
  name : String
  /-- The most current that it draws, in milliamperes. -/
  maxPower : Nat := 100
  /-- The packet size of its control endpoint. -/
  controlPacket : Nat := 64
  deriving DecidableEq, Repr

/-- What the device says about its reports. -/
structure HidInterface where
  descriptor : Bytes
  /-- How often the host should ask for reports, in milliseconds. -/
  pollMs : Nat := 10
  packet : Nat
  reportSize : Nat
  /-- Whether it can be used as a keyboard before a system is started. -/
  bootKeyboard : Bool
  deriving DecidableEq, Repr

namespace UsbIdentity

def programmer : UsbIdentity where
  product := 0x05DF
  name := "tinykb programmer"

def keyboard : UsbIdentity where
  product := 0x27DB
  name := "tinykb keyboard"

def text (i : UsbIdentity) : String :=
  "usb " ++ Hex.ofWord i.vendor ++ ":" ++ Hex.ofWord i.product ++ " \"" ++ i.manufacturer ++ "\" \"" ++
    i.name ++ "\" power " ++ toString i.maxPower ++ " packet0 " ++ toString i.controlPacket

end UsbIdentity

namespace HidInterface

def programmer : HidInterface where
  descriptor := Descriptor.programmer
  packet := Autotype.reportSize
  reportSize := Autotype.reportSize
  bootKeyboard := false

def keyboard : HidInterface where
  descriptor := Descriptor.keyboard
  packet := Report.size
  reportSize := Report.size
  bootKeyboard := true

def text (i : HidInterface) : String :=
  "hid " ++ Hex.encode i.descriptor ++ " poll " ++ toString i.pollMs ++ " packet " ++
    toString i.packet ++ " size " ++ toString i.reportSize ++
    (if i.bootKeyboard then " subclass Boot boot Keyboard" else " subclass No boot None")

end HidInterface

end Autotype
