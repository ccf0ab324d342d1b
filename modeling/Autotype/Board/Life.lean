import Autotype.Board.Basic
import Autotype.Engine.Typing

/-!
# Time on the board

What runs on the board runs for a limited time, while the host does things at set moments. Time goes on
only when whoever runs gives up control; the host's events of the new millisecond come first. In keyboard
mode a poll gives up control once. In programming mode a poll comes back at once if the host did something
since the last one, and otherwise as soon as it does something, or after ten milliseconds.
-/

namespace Autotype

/-- The board while something runs on it in the given mode. -/
structure Life (mode : Mode) where
  board : Board
  passed : Nat := 0
  /-- The milliseconds after which nothing is run any more. -/
  limit : Nat
  /-- What the host does, and after how many milliseconds. -/
  events : List (Nat × HostEvent) := []
  /-- Whether the bus waits to be served for the first time. -/
  serviceDue : Bool := false
  deriving DecidableEq

namespace Life

variable {mode : Mode}

/-- Lets the host's events of the present millisecond happen. -/
def happen (l : Life mode) : Life mode :=
  { l with board := (l.events.filter (·.1 == l.passed)).foldl (fun b e => b.happen e.2) l.board }

/-- Serves the bus for the first time, if it waits for that. -/
def serve (l : Life mode) : Life mode :=
  if l.serviceDue then { l with board := l.board.note .serving, serviceDue := false } else l

/-- One more millisecond passes. -/
def advance (l : Life mode) : Life mode :=
  { l with board := { l.board with now := l.board.now + 1 }, passed := l.passed + 1 }.happen

/-- Gives up control for a millisecond, if there is time left. -/
def rest : Routine (Life mode) Unit := fun l =>
  if l.passed < l.limit then .ok () l.serve.advance else .error .gaveUp l.serve

/-- Takes note of what the host did. -/
def quiet (l : Life mode) : Life mode :=
  { l with board := { l.board with signal := false } }

/-- Waits until the host does something, for at most so many milliseconds. -/
def awaitHost : Nat → Routine (Life mode) Unit
  | 0 => fun l => .ok () l.quiet
  | most + 1 => fun l =>
    if l.board.signal then .ok () l.quiet
    else
      match rest l with
      | .ok _ l' => awaitHost most l'
      | .error e l' => .error e l'

/-- How long a poll for the host's requests lasts at most, in milliseconds. -/
def linkTick : Nat := 10

/-! ## Patience -/

def left (l : Life mode) : Nat :=
  l.limit - l.passed

/-- What is left, counting a signal of the host as half a millisecond. -/
def leftHalves (l : Life mode) : Nat :=
  2 * l.left + l.board.signal.toNat

theorem left_serve (l : Life mode) : l.serve.left = l.left := by
  unfold serve
  split <;> rfl

theorem left_advance (l : Life mode) : l.advance.left = l.left - 1 := by
  simp only [left, advance, happen]
  omega

/-- Control that was given up comes back with less time left. -/
theorem left_rest {l l' : Life mode} (h : rest l = .ok () l') : l'.left < l.left := by
  unfold rest at h
  split at h
  · next time =>
    cases h
    have served := left_serve l
    have advanced := left_advance l.serve
    have positive : 0 < l.left := by simp only [left]; omega
    omega
  · cases h

theorem leftHalves_rest {l l' : Life mode} (h : rest l = .ok () l') : l'.leftHalves < 2 * l.left := by
  have less := left_rest h
  have signal := Bool.toNat_le l'.board.signal
  simp only [leftHalves]
  omega

theorem leftHalves_quiet (l : Life mode) : l.quiet.leftHalves = 2 * l.left :=
  rfl

theorem leftHalves_awaitHost_le {most : Nat} {l l' : Life mode} (h : awaitHost most l = .ok () l') :
    l'.leftHalves ≤ l.leftHalves := by
  have whole : 2 * l.left ≤ l.leftHalves := by simp only [leftHalves]; omega
  induction most generalizing l with
  | zero =>
    cases h
    rw [leftHalves_quiet]
    exact whole
  | succ most ih =>
    unfold awaitHost at h
    split at h
    · cases h
      rw [leftHalves_quiet]
      exact whole
    · split at h
      · next _ _ hr =>
        have less := leftHalves_rest hr
        have later := ih h (by simp only [leftHalves]; omega)
        omega
      · cases h

/-- A wait that may last a millisecond uses up a signal or some time. -/
theorem leftHalves_awaitHost {most : Nat} {l l' : Life mode}
    (h : awaitHost (most + 1) l = .ok () l') : l'.leftHalves < l.leftHalves := by
  unfold awaitHost at h
  split at h
  · next signal =>
    cases h
    rw [leftHalves_quiet]
    simp [leftHalves, signal]
  · split at h
    · next _ _ hr =>
      have less := leftHalves_rest hr
      have later := leftHalves_awaitHost_le h
      have whole : 2 * l.left ≤ l.leftHalves := by simp only [leftHalves]; omega
      omega
    · cases h

/-! ## The board as a world -/

instance : Surroundings (Life .keyboard) where
  now l := l.board.clock
  poll := rest
  patience := left
  patience_poll := left_rest

instance : Surroundings (Life .programming) where
  now l := l.board.clock
  poll := awaitHost linkTick
  patience := leftHalves
  patience_poll := leftHalves_awaitHost

instance : Transport (Life .keyboard) where
  isReady l := l.board.isReady
  isConnected l := l.board.configured
  send r l := { l with board := l.board.sendReport r }
  patience_send _ _ := Nat.le_refl _

instance : StatusLight (Life .keyboard) where
  setLight lit l := { l with board := l.board.setLight lit }
  patience_setLight _ _ := Nat.le_refl _

instance : StatusLight (Life .programming) where
  setLight lit l := { l with board := l.board.setLight lit }
  patience_setLight _ _ := Nat.le_refl _

instance : ProgrammingLink (Life .programming) where
  isActive l := l.board.isActive
  exitRequested l := l.board.exitRequested

instance : ResetControl (Life mode) where
  cause l := ResetControl.cause l.board
  backupCause l := ResetControl.backupCause l.board
  clearCauses l := { l with board := ResetControl.clearCauses l.board }
  disableWatchdog l := { l with board := ResetControl.disableWatchdog l.board }
  armRestart reason l := { l with board := ResetControl.armRestart reason l.board }

end Life

end Autotype
