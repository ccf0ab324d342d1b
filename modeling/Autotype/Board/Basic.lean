import Autotype.Board.Event
import Autotype.Programming.Programmer
import Autotype.Programming.Watch

/-!
# The board

The board carries the chip with its reset registers, the flash, the light and the connection to the host.
Requests of the host go to the programmer, if there is one, and wake up whoever waits for the host. Whether
keyboard reports can be sent follows the bus: the host has to use the device, and the bus must not sleep.
-/

namespace Autotype

/-- Where the flash chip is: by itself, or below the programmer that works on it. -/
inductive FlashHolder where
  | bare (flash : Flash)
  | programmer (p : Programmer FlashStore)
  deriving DecidableEq

namespace FlashHolder

def flash : FlashHolder → Flash
  | .bare flash => flash
  | .programmer p => p.store.medium.flash

def programmer? : FlashHolder → Option (Programmer FlashStore)
  | .bare _ => none
  | .programmer p => some p

/-- Changes the chip in its place. -/
def mapFlash (f : Flash → Flash) : FlashHolder → FlashHolder
  | .bare flash => .bare (f flash)
  | .programmer p =>
    let medium := p.store.medium
    .programmer { p with store := { p.store with medium := { medium with flash := f medium.flash } } }

end FlashHolder

inductive Attached where
  /-- Nobody: the device has not presented itself yet. -/
  | nobody
  | programmer
  | keyboard
  deriving DecidableEq, Repr

/-- The board at one moment. -/
structure Board where
  now : Nat := 0
  holder : FlashHolder := .bare {}
  resets : ResetUnit := {}
  lit : Bool := false
  configured : Bool := false
  suspended : Bool := false
  /-- Whether the host did something since somebody last waited for it. -/
  signal : Bool := false
  attached : Attached := .programmer
  /-- How many of the next keyboard reports will be lost. -/
  lostReports : Nat := 0
  /-- What happened, the latest first. -/
  log : List BoardRecord := []
  deriving DecidableEq

namespace Board

def note (b : Board) (event : BoardEvent) : Board :=
  { b with log := ⟨b.now, event⟩ :: b.log }

/-- The reading of the clock: the low 32 bits of the time. -/
def clock (b : Board) : UInt32 :=
  .ofNat b.now

/-! ## The flash -/

def flash (b : Board) : Flash :=
  b.holder.flash

def programmer? (b : Board) : Option (Programmer FlashStore) :=
  b.holder.programmer?

/-- Writes down what was done to the flash chip since this was last done. -/
def noteFlash (b : Board) : Board :=
  let noted := b.flash.calls.reverse.foldl (fun b call => b.note (.flash call)) b
  { noted with holder := b.holder.mapFlash fun f => { f with calls := [] } }

/-- The store as it is read from the flash chip, which is by itself again. -/
def loadStore (b : Board) : Store FlashStore × Board :=
  let medium := FlashStore.load b.flash
  let read := noteFlash { b with holder := .bare medium.flash }
  (Store.mount { medium with flash := read.flash }, read)

/-- The board with a new programmer on what the flash chip holds. -/
def install (b : Board) : Board :=
  let (store, b) := b.loadStore
  { b with holder := .programmer (.new store) }

/-! ## Parts of the board -/

def setLight (b : Board) (lit : Bool) : Board :=
  { b with lit := lit }.note (.light lit)

/-- Switches the light over. -/
def toggleLight (b : Board) : Board :=
  b.setLight !b.lit

/-- Sends a keyboard report, which may get lost. -/
def sendReport (b : Board) (r : Report) : Board :=
  { b with lostReports := b.lostReports - 1 }.note (.report r (0 < b.lostReports))

def isReady (b : Board) : Bool :=
  b.configured && !b.suspended

/-- Whether the host made contact with the programmer. -/
def isActive (b : Board) : Bool :=
  b.programmer?.any (·.active)

/-- Whether the host asked the programmer to leave. -/
def exitRequested (b : Board) : Bool :=
  b.programmer?.any (·.session.exitRequested)

instance : ResetControl Board where
  cause b := ResetControl.cause b.resets
  backupCause b := ResetControl.backupCause b.resets
  clearCauses b :=
    let resets := ResetControl.clearCauses b.resets
    { b with resets := resets }.note (.scratch resets.scratch)
  disableWatchdog b :=
    { b with resets := ResetControl.disableWatchdog b.resets }.note .watchdogStop
  armRestart reason b :=
    let resets := ResetControl.armRestart reason b.resets
    ({ b with resets := resets }.note (.scratch resets.scratch)).note (.watchdogStart restartDelay)

/-! ## The host -/

/-- Wakes up whoever waits for the host. -/
def wake (b : Board) : Board :=
  { b with signal := true }

/-- A report arrives at the programmer's side. -/
def setReport (b : Board) (data : Bytes) : HostAnswer × Board :=
  match b.holder with
  | .bare _ => (.rejected, b.wake)
  | .programmer p => (.accepted, noteFlash { b.wake with holder := .programmer (p.setReport data) })

/-- A report is asked for at the programmer's side. -/
def getReport (b : Board) (room : Nat) : HostAnswer × Board :=
  match b.holder with
  | .bare _ => (.nothing, b.wake)
  | .programmer p =>
    let (count, buffer, p) := p.getReport (List.replicate room 0)
    (if count = 0 then .nothing else .bytes (buffer.take count),
      { b.wake with holder := .programmer p })

/-- An idle rate is set at the programmer's side. -/
def setIdle (b : Board) : Board :=
  match b.holder with
  | .bare _ => b.wake
  | .programmer p => { b.wake with holder := .programmer p.noteContact }

/-- What an event does once the device has presented itself. -/
def handle (b : Board) : HostEvent → HostAnswer × Board
  | .setReport data => if b.attached = .keyboard then (.accepted, b) else b.setReport data
  | .getReport room => if b.attached = .keyboard then (.nothing, b) else b.getReport room
  | .setIdle => (.nothing, if b.attached = .keyboard then b else b.setIdle)
  | .keyboardSetReport _ => (.accepted, b)
  | .keyboardSetIdle => (.nothing, b)
  | .configured on => (.nothing, { b with configured := on })
  | .suspended on => (.nothing, { b with suspended := on })
  | .busReset => (.nothing, { b with configured := false })
  | .fail faults =>
    (.nothing,
      { b with
        lostReports := faults.report
        holder := b.holder.mapFlash fun f => { f with faults := faults.flash } })

/-- What an event does; before the device has presented itself, only its parts can start to fail. -/
def receive (b : Board) (event : HostEvent) : HostAnswer × Board :=
  match b.attached, event with
  | .nobody, .fail _ | .programmer, _ | .keyboard, _ => b.handle event
  | .nobody, _ => (.noDevice, b)

/-- Lets an event happen and writes it down. -/
def happen (b : Board) (event : HostEvent) : Board :=
  let (answer, b) := b.receive event
  b.note (.host event answer)

end Board

end Autotype
