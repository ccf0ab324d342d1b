import Autotype.Board.Reset
import Autotype.Board.Usb
import Autotype.Store.Flash

/-!
# What happens on the board

The host does things to the board and gets answers; the board does things to the parts on it. All of that
is written down as records, each with the time at which it happened, which can be put into words.
-/

namespace Autotype

/-- How many of the next operations on the board fail, by kind. -/
structure BoardFaults where
  /-- What will fail in the flash chip. -/
  flash : FlashFaults := {}
  /-- The keyboard reports that will be lost. -/
  report : Nat := 0
  deriving DecidableEq, Repr

/-- Something that comes to the board from outside. -/
inductive HostEvent where
  | setReport (data : Bytes)
  /-- A report of at most so many bytes is asked for. -/
  | getReport (room : Nat)
  | setIdle
  | keyboardSetReport (data : Bytes)
  | keyboardSetIdle
  /-- The host takes the device into use, or puts it aside. -/
  | configured (on : Bool)
  /-- The bus goes to sleep, or wakes up. -/
  | suspended (on : Bool)
  | busReset
  /-- Parts of the board start to fail. -/
  | fail (faults : BoardFaults)
  deriving DecidableEq, Repr

def HostEvent.name : HostEvent → String
  | .setReport _ => "set_report"
  | .getReport _ => "get_report"
  | .setIdle => "set_idle"
  | .keyboardSetReport _ => "kb_set_report"
  | .keyboardSetIdle => "kb_set_idle"
  | .configured _ => "configured"
  | .suspended _ => "suspended"
  | .busReset => "bus_reset"
  | .fail _ => "fail"

/-- What the host gets for an event. -/
inductive HostAnswer where
  | nothing
  | accepted
  | rejected
  | bytes (data : Bytes)
  | noDevice
  deriving DecidableEq, Repr

def HostAnswer.text : HostAnswer → String
  | .nothing => "null"
  | .accepted => "\"Accepted\""
  | .rejected => "\"Rejected\""
  | .bytes data => "\"" ++ Hex.encode data ++ "\""
  | .noDevice => "\"no device\""

/-- Something that happens on the board. -/
inductive BoardEvent where
  /-- Something was done to the flash chip. -/
  | flash (call : FlashCall)
  | light (lit : Bool)
  | scratch (value : UInt32)
  | watchdogStop
  | watchdogStart (ms : UInt32)
  /-- A keyboard report was sent, or lost. -/
  | report (r : Report) (lost : Bool)
  | host (event : HostEvent) (answer : HostAnswer)
  /-- The device gave its identity. -/
  | identity (i : UsbIdentity)
  /-- The device described its reports. -/
  | interface (i : HidInterface)
  /-- The bus is being served. -/
  | serving
  deriving DecidableEq

def BoardEvent.text : BoardEvent → String
  | .flash call => call.text
  | .light lit => if lit then "led 1" else "led 0"
  | .scratch value => "scratch" ++ toString ResetUnit.scratchIndex ++ " " ++ toString value.toNat
  | .watchdogStop => "wd_stop"
  | .watchdogStart ms => "wd_start " ++ toString ms.toNat
  | .report r lost => "report " ++ Hex.encode r.toBytes ++ (if lost then " failed" else "")
  | .host event answer => event.name ++ " " ++ answer.text
  | .identity i => i.text
  | .interface i => i.text
  | .serving => "usb_run"

/-- An event with the time at which it happened. -/
structure BoardRecord where
  now : Nat
  event : BoardEvent
  deriving DecidableEq

def BoardRecord.text (r : BoardRecord) : String :=
  toString r.now ++ " " ++ r.event.text

end Autotype
