import Autotype.Board.Life
import Autotype.Proofs.Boots

/-!
# Keyboards and the bus

Keyboard reports can be sent while the host uses the device and the bus does not sleep. The device learns of
both from what it is told, and a reset of the bus, which ends a sleep without a word, only tells it that it is
not used any more. So it takes the bus for asleep until it is told otherwise, and is ready just when it should
be unless the bus was reset in its sleep (`Board.ready_as_bus_iff`).
-/

namespace Autotype

namespace HostEvent

/-- Whether an event says whether the host uses the device. -/
def changesUse : HostEvent → Bool
  | .configured _ | .busReset => true
  | _ => false

/-- Whether an event tells the device that the bus goes to sleep or wakes up. -/
def announcesSleep : HostEvent → Bool
  | .suspended _ => true
  | _ => false

/-- Whether an event sends the bus to sleep or wakes it up, announced or not. -/
def changesSleep : HostEvent → Bool
  | .suspended _ | .busReset => true
  | _ => false

end HostEvent

/-! ## The bus -/

namespace Bus

/-- Whether the host uses the device after these events. -/
def InUse (es : List HostEvent) : Prop :=
  latest? HostEvent.changesUse es = some (.configured true)

/-- Whether the bus sleeps after these events. -/
def Asleep (es : List HostEvent) : Prop :=
  latest? HostEvent.changesSleep es = some (.suspended true)

instance (es : List HostEvent) : Decidable (Asleep es) :=
  inferInstanceAs (Decidable (_ = _))

/-- Whether the last that was said about sleep is that the bus goes to sleep. -/
def SaidAsleep (es : List HostEvent) : Prop :=
  latest? HostEvent.announcesSleep es = some (.suspended true)

/-- Whether the bus was reset when the last that was said about sleep was that it goes to sleep, and nothing
was said about that since. -/
def ResetAsleep (es : List HostEvent) : Prop :=
  ∃ before since, es = before ++ .busReset :: since ∧ SaidAsleep before ∧ ∀ on, .suspended on ∉ since

theorem announcesSleep_of_not_mem {since : List HostEvent} (quiet : ∀ on, .suspended on ∉ since) :
    ∀ e ∈ since, e.announcesSleep = false := by
  intro e mem
  cases e with
  | suspended on => exact absurd mem (quiet on)
  | _ => rfl

/-- What was said before a reset about sleep stands after it as long as nothing else is said. -/
theorem saidAsleep_of_resetAsleep {es : List HostEvent} (reset : ResetAsleep es) : SaidAsleep es := by
  obtain ⟨before, since, rfl, said, quiet⟩ := reset
  rw [SaidAsleep, latest?_append_others]
  · exact said
  · intro e mem
    rcases List.mem_cons.mp mem with rfl | later
    · rfl
    · exact announcesSleep_of_not_mem quiet e later

theorem not_asleep_of_resetAsleep {es : List HostEvent} (reset : ResetAsleep es) : ¬ Asleep es := by
  obtain ⟨before, since, rfl, -, quiet⟩ := reset
  rw [List.append_cons]
  induction since using List.reverseRecOn with
  | nil =>
    rw [List.append_nil, Asleep, latest?_concat _ _ rfl]
    exact fun same => nomatch same
  | append_singleton since e ih =>
    have before := ih fun on mem => quiet on (List.mem_append_left _ mem)
    rw [← List.append_assoc, Asleep]
    cases e with
    | suspended on => exact absurd (List.mem_append_right _ List.mem_cons_self) (quiet on)
    | busReset =>
      rw [latest?_concat _ _ rfl]
      exact fun same => nomatch same
    | _ =>
      rw [latest?_concat_other _ _ rfl]
      exact before

theorem saidAsleep_of_asleep {es : List HostEvent} (asleep : Asleep es) : SaidAsleep es := by
  induction es using List.reverseRecOn with
  | nil => cases asleep
  | append_singleton es e ih =>
    cases e with
    | suspended on =>
      rw [Asleep, latest?_concat _ es rfl] at asleep
      exact (latest?_concat _ es rfl).trans asleep
    | busReset =>
      rw [Asleep, latest?_concat _ es rfl] at asleep
      cases asleep
    | _ =>
      rw [Asleep, latest?_concat_other _ es rfl] at asleep
      exact (latest?_concat_other _ es rfl).trans (ih asleep)

/-- What was said last about sleep is true, unless the bus was reset since. -/
theorem asleep_or_resetAsleep {es : List HostEvent} (said : SaidAsleep es) :
    Asleep es ∨ ResetAsleep es := by
  induction es using List.reverseRecOn with
  | nil => cases said
  | append_singleton es e ih =>
    cases e with
    | suspended on =>
      rw [SaidAsleep, latest?_concat _ es rfl] at said
      exact .inl ((latest?_concat _ es rfl).trans said)
    | busReset =>
      rw [SaidAsleep, latest?_concat_other _ es rfl] at said
      exact .inr ⟨es, [], rfl, said, fun _ => List.not_mem_nil⟩
    | _ =>
      rw [SaidAsleep, latest?_concat_other _ es rfl] at said
      rcases ih said with asleep | ⟨before, since, rfl, before_said, quiet⟩
      · exact .inl ((latest?_concat_other _ es rfl).trans asleep)
      · refine .inr ⟨before, since ++ [_], List.append_assoc before (.busReset :: since) [_],
          before_said, fun on => ?_⟩
        simpa using quiet on

end Bus

namespace Board

/-! ## What the board makes of it -/

theorem exists_log_foldl_note (calls : List FlashCall) (b : Board) :
    ∃ log, calls.foldl (fun b call => b.note (.flash call)) b = { b with log := log } := by
  induction calls generalizing b with
  | nil => exact ⟨b.log, rfl⟩
  | cons call calls ih =>
    obtain ⟨log, same⟩ := ih (b.note (.flash call))
    exact ⟨log, same⟩

/-- Writing down what was done to the flash chip changes nothing else on the board. -/
theorem exists_noteFlash (b : Board) :
    ∃ log holder, b.noteFlash = { b with log := log, holder := holder } := by
  obtain ⟨log, same⟩ := exists_log_foldl_note b.flash.calls.reverse b
  refine ⟨log, b.holder.mapFlash fun f => { f with calls := [] }, ?_⟩
  rw [noteFlash, same]

/-- Whether a board stands to the bus as another does. -/
structure SameLine (b c : Board) : Prop where
  attached : c.attached = b.attached
  configured : c.configured = b.configured
  suspended : c.suspended = b.suspended

theorem sameLine_setReport (b : Board) (data : Bytes) : b.SameLine (b.setReport data).2 := by
  cases holder : b.holder with
  | bare flash =>
    simp only [setReport, holder]
    exact ⟨rfl, rfl, rfl⟩
  | programmer p =>
    obtain ⟨log, holder', noted⟩ :=
      exists_noteFlash { b.wake with holder := .programmer (p.setReport data) }
    simp only [setReport, holder, noted]
    exact ⟨rfl, rfl, rfl⟩

theorem sameLine_getReport (b : Board) (room : Nat) : b.SameLine (b.getReport room).2 := by
  unfold getReport
  split <;> exact ⟨rfl, rfl, rfl⟩

theorem sameLine_setIdle (b : Board) : b.SameLine b.setIdle := by
  unfold setIdle
  split <;> exact ⟨rfl, rfl, rfl⟩

/-- An event that tells nothing of the bus leaves it to the board what it is. -/
theorem sameLine_handle (b : Board) {e : HostEvent} (use : e.changesUse = false)
    (sleep : e.announcesSleep = false) : b.SameLine (b.handle e).2 := by
  have same : b.SameLine b := ⟨rfl, rfl, rfl⟩
  cases e with
  | setReport data =>
    show b.SameLine (if b.attached = .keyboard then (HostAnswer.accepted, b) else b.setReport data).2
    split
    · exact same
    · exact b.sameLine_setReport data
  | getReport room =>
    show b.SameLine (if b.attached = .keyboard then (HostAnswer.nothing, b) else b.getReport room).2
    split
    · exact same
    · exact b.sameLine_getReport room
  | setIdle =>
    show b.SameLine (if b.attached = .keyboard then b else b.setIdle)
    split
    · exact same
    · exact b.sameLine_setIdle
  | keyboardSetReport data | keyboardSetIdle => exact same
  | fail faults => exact ⟨rfl, rfl, rfl⟩
  | configured on | busReset => cases use
  | suspended on => cases sleep

variable {b : Board}

theorem happen_eq (present : b.attached ≠ .nobody) (e : HostEvent) :
    b.happen e = (b.handle e).2.note (.host e (b.handle e).1) := by
  have received : b.receive e = b.handle e := by
    unfold receive
    cases attached : b.attached with
    | nobody => exact absurd attached present
    | programmer | keyboard => rfl
  rw [happen, received]

theorem attached_happen (present : b.attached ≠ .nobody) (e : HostEvent) :
    (b.happen e).attached ≠ .nobody := by
  rw [happen_eq present]
  cases e with
  | configured on | suspended on | busReset => exact present
  | _ =>
    show (b.handle _).2.attached ≠ .nobody
    rw [(b.sameLine_handle rfl rfl).attached]
    exact present

/-- Whether the board takes itself for used changes by what changes that. -/
theorem configured_happen (present : b.attached ≠ .nobody) {e : HostEvent} (changes : e.changesUse = true) :
    (b.happen e).configured = true ↔ e = .configured true := by
  rw [happen_eq present]
  cases e with
  | configured on => simp [handle, note]
  | busReset => simp [handle, note]
  | _ => cases changes

theorem configured_happen_other (present : b.attached ≠ .nobody) {e : HostEvent}
    (other : e.changesUse = false) : (b.happen e).configured = b.configured := by
  rw [happen_eq present]
  cases e with
  | suspended on => rfl
  | configured on | busReset => cases other
  | _ => exact (b.sameLine_handle rfl rfl).configured

/-- Whether the board takes the bus for asleep changes only by what it is told of that. -/
theorem suspended_happen (present : b.attached ≠ .nobody) {e : HostEvent}
    (announces : e.announcesSleep = true) : (b.happen e).suspended = true ↔ e = .suspended true := by
  rw [happen_eq present]
  cases e with
  | suspended on => simp [handle, note]
  | _ => cases announces

theorem suspended_happen_other (present : b.attached ≠ .nobody) {e : HostEvent}
    (other : e.announcesSleep = false) : (b.happen e).suspended = b.suspended := by
  rw [happen_eq present]
  cases e with
  | configured on | busReset => rfl
  | suspended on => cases other
  | _ => exact (b.sameLine_handle rfl rfl).suspended

/-- A board after these events. -/
def afterAll (b : Board) (es : List HostEvent) : Board :=
  es.foldl happen b

/-- What is down at first and follows the events of a kind, of which one puts it up, is up if that event was
the latest of them. -/
theorem flag_afterAll {kind : HostEvent → Bool} {flag : Board → Bool} {up : HostEvent}
    (decides : ∀ (b : Board) (e : HostEvent), b.attached ≠ .nobody → kind e = true →
      (flag (b.happen e) = true ↔ e = up))
    (leaves : ∀ (b : Board) (e : HostEvent), b.attached ≠ .nobody → kind e = false →
      flag (b.happen e) = flag b)
    (present : b.attached ≠ .nobody) (down : flag b = false) (es : List HostEvent) :
    flag (b.afterAll es) = true ↔ latest? kind es = some up := by
  have followed := (foldl_iff_latest? kind es (U := fun b : Board => b.attached ≠ .nobody)
    (P := fun b => flag b = true) (fun _ e usual => attached_happen usual e) decides
    (fun b e usual other => by rw [leaves b e usual other]) present).2
  refine followed.trans ?_
  cases latest? kind es with
  | none => exact iff_of_false (by simp [down]) (Option.some_ne_none up).symm
  | some e => exact Option.some_inj.symm

theorem configured_afterAll (present : b.attached ≠ .nobody) (unused : b.configured = false)
    (es : List HostEvent) : (b.afterAll es).configured = true ↔ Bus.InUse es :=
  flag_afterAll (fun _ _ usual => configured_happen usual)
    (fun _ _ usual other => configured_happen_other usual other) present unused es

theorem suspended_afterAll (present : b.attached ≠ .nobody) (awake : b.suspended = false)
    (es : List HostEvent) : (b.afterAll es).suspended = true ↔ Bus.SaidAsleep es :=
  flag_afterAll (fun _ _ usual => suspended_happen usual)
    (fun _ _ usual other => suspended_happen_other usual other) present awake es

/-- However the bus and the host behave, the board is ready if the host uses it and the last that was said
about sleep is not that the bus goes to sleep. So it is ready just when the host uses it and the bus is awake,
unless the bus was reset in its sleep and nothing was said about that since: then it is not ready although the
host uses it. -/
theorem ready_as_bus_iff (present : b.attached ≠ .nobody) (unused : b.configured = false)
    (awake : b.suspended = false) (es : List HostEvent) :
    ((b.afterAll es).isReady = true ↔ Bus.InUse es ∧ ¬ Bus.SaidAsleep es) ∧
    (((b.afterAll es).isReady = true ↔ Bus.InUse es ∧ ¬ Bus.Asleep es) ↔
      ¬ (Bus.InUse es ∧ Bus.ResetAsleep es)) := by
  have ready : (b.afterAll es).isReady = true ↔ Bus.InUse es ∧ ¬ Bus.SaidAsleep es := by
    rw [← configured_afterAll present unused es, ← suspended_afterAll present awake es, isReady,
      Bool.and_eq_true, Bool.not_eq_true', Bool.not_eq_true]
  refine ⟨ready, ?_⟩
  rw [ready]
  constructor
  · rintro as_bus ⟨used, reset⟩
    exact (as_bus.mpr ⟨used, Bus.not_asleep_of_resetAsleep reset⟩).2 (Bus.saidAsleep_of_resetAsleep reset)
  · intro undisturbed
    refine and_congr_right fun used => not_congr ⟨fun said => ?_, Bus.saidAsleep_of_asleep⟩
    rcases Bus.asleep_or_resetAsleep said with asleep | reset
    · exact asleep
    · exact absurd ⟨used, reset⟩ undisturbed

theorem ready_as_bus_iff_waken :
    ({} : Board).attached ≠ .nobody ∧ ({} : Board).configured = false ∧ ({} : Board).suspended = false ∧
    ((({} : Board).afterAll [.suspended true, .busReset, .suspended false, .configured true]).isReady = true ↔
      Bus.InUse [.suspended true, .busReset, .suspended false, .configured true] ∧
      ¬ Bus.SaidAsleep [.suspended true, .busReset, .suspended false, .configured true]) ∧
    (((({} : Board).afterAll [.suspended true, .busReset, .suspended false, .configured true]).isReady = true ↔
      Bus.InUse [.suspended true, .busReset, .suspended false, .configured true] ∧
      ¬ Bus.Asleep [.suspended true, .busReset, .suspended false, .configured true]) ↔
      ¬ (Bus.InUse [.suspended true, .busReset, .suspended false, .configured true] ∧
        Bus.ResetAsleep [.suspended true, .busReset, .suspended false, .configured true])) :=
  ⟨by decide, rfl, rfl, ready_as_bus_iff (by decide) rfl rfl _⟩

/-- After a reset in its sleep the bus is awake, but a board that the host takes into use then is not ready. -/
theorem not_ready_after_reset :
    ¬ ∀ (b : Board) (es : List HostEvent), b.attached ≠ .nobody → b.configured = false →
      b.suspended = false → ((b.afterAll es).isReady = true ↔ Bus.InUse es ∧ ¬ Bus.Asleep es) := by
  intro as_bus
  have ready := (as_bus {} [.suspended true, .busReset, .configured true] (by decide) rfl rfl).mpr
    ⟨rfl, by decide⟩
  revert ready
  decide

end Board

end Autotype
