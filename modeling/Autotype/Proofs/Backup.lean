import Autotype.Board.Lives
import Autotype.Proofs.Boots

/-!
# The backup that is never asked

Arming a restart leaves a copy of the cause in the scratch register, in case the chip's own cause is gone by
the time somebody looks. But the chip answers to be switched on when it has lost its cause, never that there
is none, so the copy is not asked: a start is one as a keyboard exactly as long as the chip's own cause
stands, whatever the scratch register holds.
-/

namespace Autotype

/-- What happens to the board's reset registers. -/
inductive ResetEvent where
  | arm (reason : RestartReason)
  | clear
  | disable
  | select
  | reset (kind : ResetKind)
  /-- The chip's own cause turns out to be gone. -/
  | lose
  deriving DecidableEq, Repr

namespace ResetEvent

/-- Whether an event changes the chip's own cause. -/
def changesCause : ResetEvent → Bool
  | .reset _ | .lose => true
  | .arm _ | .clear | .disable | .select => false

/-- Whether an event starts or stops the watchdog. -/
def changesWatchdog : ResetEvent → Bool
  | .arm _ | .disable | .select | .reset _ => true
  | .clear | .lose => false

/-- Whether the watchdog runs after some events. -/
def Armed (es : List ResetEvent) : Prop :=
  ∃ reason, latest? changesWatchdog es = some (.arm reason)

end ResetEvent

namespace ResetUnit

def happen (u : ResetUnit) : ResetEvent → ResetUnit
  | .arm reason => ResetControl.armRestart reason u
  | .clear => ResetControl.clearCauses u
  | .disable => ResetControl.disableWatchdog u
  | .select => (selectMode u).2
  | .reset kind => u.after kind
  | .lose => { u with watchdogReset := false }

def afterAll (u : ResetUnit) (es : List ResetEvent) : ResetUnit :=
  es.foldl happen u

/-- The chip's own cause is never empty, so it decides alone. -/
theorem mode_eq_keyboard_iff (u : ResetUnit) : (selectMode u).1 = .keyboard ↔ u.watchdogReset = true := by
  have mode : (selectMode u).1 = .ofCause (.resolve u.cause u.backup) := rfl
  have known : u.cause.isEmpty = false := by
    unfold cause
    split
    · decide
    · decide
  rw [mode, ResetCause.resolve, known, if_neg Bool.false_ne_true, cause]
  cases u.watchdogReset
  · decide
  · decide

theorem watchdogReset_happen (u : ResetUnit) {e : ResetEvent} (changes : e.changesCause = true) :
    (u.happen e).watchdogReset = true ↔ e = .reset .watchdog := by
  cases e with
  | reset kind => cases kind <;> simp [happen, after]
  | lose => simp [happen]
  | arm | clear | disable | select => cases changes

theorem watchdogReset_happen_other (u : ResetUnit) {e : ResetEvent} (other : e.changesCause = false) :
    (u.happen e).watchdogReset = u.watchdogReset := by
  cases e with
  | arm | clear | disable | select => rfl
  | reset | lose => cases other

theorem afterAll_append (u : ResetUnit) (as bs : List ResetEvent) :
    u.afterAll (as ++ bs) = (u.afterAll as).afterAll bs :=
  List.foldl_append

/-- The chip's own cause is what the latest event that concerns it made of it. -/
theorem watchdogReset_afterAll (u : ResetUnit) (es : List ResetEvent) :
    (u.afterAll es).watchdogReset = true ↔
      (latest? ResetEvent.changesCause es).elim (u.watchdogReset = true) (· = .reset .watchdog) :=
  (foldl_iff_latest? ResetEvent.changesCause es (U := fun _ => True)
    (P := fun u : ResetUnit => u.watchdogReset = true) (fun _ _ _ => trivial)
    (fun u e _ changes => u.watchdogReset_happen (e := e) changes)
    (fun u e _ other => by rw [u.watchdogReset_happen_other (e := e) other]) trivial).2

/-- After the watchdog fired, whatever happens, a start is one as a keyboard exactly if the chip's own cause
was not lost since, or the watchdog fired again after that. Without such a cause the scratch register does
not make it one, whatever it holds. -/
theorem keyboard_iff_cause_stands (u : ResetUnit) :
    (∀ before since, (selectMode (u.afterAll (before ++ .reset .watchdog :: since))).1 = .keyboard ↔
      ∀ e, latest? ResetEvent.changesCause since = some e → e = .reset .watchdog) ∧
    ∀ scratch, u.watchdogReset = false → (selectMode { u with scratch := scratch }).1 = .programming := by
  constructor
  · intro before since
    have fired : ((u.afterAll before).happen (.reset .watchdog)).watchdogReset = true := rfl
    rw [mode_eq_keyboard_iff, afterAll_append]
    show (((u.afterAll before).happen (.reset .watchdog)).afterAll since).watchdogReset = true ↔ _
    rw [watchdogReset_afterAll]
    cases latest? ResetEvent.changesCause since with
    | none => exact iff_of_true fired fun e last => nomatch last
    | some last => exact ⟨fun is e same => Option.some.inj same ▸ is, fun is => is last rfl⟩
  · intro scratch lost
    cases mode : (selectMode { u with scratch := scratch }).1 with
    | programming => rfl
    | keyboard =>
      have stands : u.watchdogReset = true := (mode_eq_keyboard_iff { u with scratch := scratch }).mp mode
      rw [lost] at stands
      cases stands

/-- When the chip has lost its cause, the copy that an armed restart left in the scratch register is not
enough. -/
theorem not_keyboard_after_lost_cause :
    ¬ ∀ (u : ResetUnit) (before since : List ResetEvent), ResetEvent.Armed before →
      .select ∉ since → .reset .power ∉ since →
      (u.afterAll (before ++ .reset .watchdog :: since)).backup = .watchdog →
      (selectMode (u.afterAll (before ++ .reset .watchdog :: since))).1 = .keyboard := by
  intro keyboard
  have mode := keyboard {} [.reset .power, .arm .exitRequested] [.lose] ⟨.exitRequested, rfl⟩ (by decide)
    (by decide) (by decide)
  revert mode
  decide

end ResetUnit

end Autotype
