import Autotype.Board.Life

/-!
# Lives of the device

A life of the device begins with a reset and ends with the next one, or when nobody looks any more. What
outlasts it are the flash, the scratch register unless the power goes, and what is broken. Each life is
told in two ways: from the moment at which the device is ready to run (`Board.live`), and from the very
first instruction on, with the device presenting itself to the host (`Board.liveFromReset`).
-/

namespace Autotype

/-- What a reset leaves in the reset registers. -/
inductive ResetKind where
  | power
  /-- The reset line was pulled. -/
  | run
  | watchdog
  deriving DecidableEq, Repr

/-- The reset registers after a reset. -/
def ResetUnit.after (u : ResetUnit) : ResetKind → ResetUnit
  | .power => { watchdogReset := false, scratch := 0 }
  | .run => { u with watchdogReset := false }
  | .watchdog => { u with watchdogReset := true }

/-- The circumstances of a life. -/
structure Circumstances where
  /-- How long it is watched, in milliseconds. -/
  limit : Nat
  /-- The reset it begins with; without one, what the end of the last life leads to. -/
  reset : Option ResetKind := none
  /-- What the scratch register holds instead of what it should. -/
  scratch : Option UInt32 := none
  /-- The time at which it begins. -/
  clock : Nat := 0
  /-- What the host does, and after how many milliseconds. -/
  events : List (Nat × HostEvent) := []
  deriving DecidableEq

/-- What is known about a life after it. -/
structure Chronicle where
  mode : Mode
  restarted : Bool
  /-- The store: the programmer's at the end, the keyboard's as it was read. -/
  store : Store FlashStore
  engine : Engine
  board : Board
  deriving DecidableEq

namespace Board

/-- The board right after the reset that begins a life. -/
def reset (b : Board) (restarted : Bool) (c : Circumstances) : Board :=
  let kind := c.reset.getD (if restarted then .watchdog else .power)
  let resets := b.resets.after kind
  { now := c.clock
    holder := .bare b.flash
    resets := { resets with scratch := c.scratch.getD resets.scratch }
    lostReports := b.lostReports }

/-- Programs for the rest of a life. -/
def liveProgramming (store : Store FlashStore) (l : Life .programming) : Chronicle :=
  let tell (restarted : Bool) (l : Life .programming) : Chronicle :=
    { mode := .programming, restarted := restarted, store := (l.board.programmer?.map (·.store)).getD store
      engine := {}, board := l.board }
  match (runProgramming : Routine (Life .programming) RestartReason) l with
  | .ok _ l => tell true l
  | .error _ l => tell false l

/-- Types for the rest of a life. -/
def liveKeyboard (store : Store FlashStore) (l : Life .keyboard) : Chronicle :=
  match Station.runKeyboard Layout.us store ⟨{}, l⟩ with
  | .ok never _ => nomatch never
  | .error _ s =>
    { mode := .keyboard, restarted := false, store := store, engine := s.engine, board := s.host.board }

/-- A life in which the host's first events find the device ready to run. -/
def live (b : Board) (c : Circumstances) : Chronicle :=
  let (mode, b) := selectMode b
  let (store, b) := b.loadStore
  match mode with
  | .programming =>
    liveProgramming store
      ({ board := { b with holder := .programmer (.new store) }, limit := c.limit, events := c.events
         : Life .programming }.happen)
  | .keyboard =>
    liveKeyboard store ({ board := b, limit := c.limit, events := c.events : Life .keyboard }.happen)

/-- Presents the device to the host. -/
def present (b : Board) (attached : Attached) (identity : UsbIdentity) (interface : HidInterface) :
    Board :=
  ({ b with attached := attached }.note (.identity identity)).note (.interface interface)

/-- A life from its first instruction on: the host's first events find no device. -/
def liveFromReset (b : Board) (c : Circumstances) : Chronicle :=
  let early : Life .programming :=
    { board := { b with attached := .nobody }, limit := c.limit, events := c.events }
  let (mode, b) := selectMode early.happen.board
  let (store, b) := (b.setLight false).loadStore
  match mode with
  | .programming =>
    let b := { b with holder := .programmer (.new store) }
    liveProgramming store
      { board := b.present .programmer .programmer .programmer, limit := c.limit, events := c.events
        serviceDue := true }
  | .keyboard =>
    liveKeyboard store
      { board := b.present .keyboard .keyboard .keyboard, limit := c.limit, events := c.events
        serviceDue := true }

/-- Lives one after the other, told by `tell`. -/
def lives (tell : Board → Circumstances → Chronicle) (b : Board) (restarted : Bool) :
    List Circumstances → List Chronicle
  | [] => []
  | c :: cs =>
    let life := tell (b.reset restarted c) c
    life :: lives tell life.board life.restarted cs

end Board

end Autotype
