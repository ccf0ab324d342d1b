import Autotype.Proofs.Calls
import Autotype.Proofs.Strokes

/-!
# Starting over

An engine can be started at any time, also in the middle of a run. It lets go of everything then, but hands
nothing over, so the host goes by the report that it was given last. The calls of an engine are followed here
whichever are made and whenever, and also when one of them is given up (`Call.Interleaved`): the last report
shows what was held when it was handed over. So after a start the host takes a modifier or a key as held just
if one was held then (`Call.start_shows_nothing_iff`). That is never so where an engine is started only while
it is not running, nor after a stop or the end of a run.
-/

namespace Autotype

namespace Engine

/-- A tick that ends a run shows in its last report that nothing is held. -/
theorem report_tick_of_stops (e : Engine) (layout : Layout) (byteAt : Nat → UInt8) (now : UInt32)
    (running : e.isRunning = true) (stops : (e.tick layout byteAt now).isRunning = false) :
    (e.tick layout byteAt now).report = .empty := by
  obtain ⟨shown, -⟩ := e.shows_tick layout byteAt now
  rw [isRunning_eq] at running stops
  rw [control_tick] at stops
  obtain ⟨reports, performed⟩ := Control.perform_of_stops layout running stops e.held
  rw [tick, report_acts, shown, performed, Report.getLastD_append]
  rfl

end Engine

/-! ## The last report -/

namespace Station

variable {σ : Type} [Surroundings σ] [Transport σ]

/-- The report given last is that of the last handover, also if an action is given up. -/
theorem report_worldAfter_act (a : Action) (s : Station σ) :
    (Routine.worldAfter (act a) s).engine.report =
      ((handover a s).toList.map fun m => m.engine.heldReport).getLastD s.engine.report := by
  have polls : ∀ u : Station σ, u.engine = s.engine →
      (Routine.worldAfter Surroundings.poll u).engine = s.engine := by
    intro u same
    simp only [Routine.worldAfter, Surroundings.poll, onHost]
    cases Surroundings.poll u.host <;> exact same
  cases a with
  | send =>
    have waited : (Routine.worldAfter (pollUntil Transport.isReady) s).engine = s.engine :=
      pollUntil_keeps polls rfl
    simp only [Routine.worldAfter, act, handover, bind, EStateM.bind] at waited ⊢
    cases wait : pollUntil Transport.isReady s with
    | ok u m => rfl
    | error u t =>
      rw [wait] at waited
      exact congrArg Engine.report waited
  | poll => exact congrArg Engine.report (polls s rfl)
  | beginLoop count length => exact s.engine.report_acts [.beginLoop count length]
  | closeLoop => exact s.engine.report_acts [.closeLoop]
  | _ => rfl

theorem report_worldAfter_perform (as : List Action) (s : Station σ) :
    (Routine.worldAfter (perform as) s).engine.report =
      ((handovers as s).map fun m => m.engine.heldReport).getLastD s.engine.report := by
  induction as generalizing s with
  | nil => rfl
  | cons a as ih =>
    have first := report_worldAfter_act a s
    simp only [Routine.worldAfter, perform, handovers, bind, EStateM.bind] at first ih ⊢
    cases done : act a s with
    | ok u t =>
      rw [done] at first
      simp only [ih t, first, List.map_append, Report.getLastD_append]
    | error u t =>
      rw [done] at first
      simp only [first, List.append_nil]

end Station

namespace Call

variable {σ μ : Type} [Medium μ] [Surroundings σ] [Transport σ] {layout : Layout}

theorem report_worldAfter_run (c : Call μ) (s : Station σ) :
    (Routine.worldAfter (c.run layout) s).engine.report =
      ((c.handovers layout s).map fun m => m.engine.heldReport).getLastD s.engine.report := by
  cases c with
  | start store => rfl
  | tick store => exact Station.report_worldAfter_perform _ s
  | stop => exact Station.report_worldAfter_perform Engine.stopping s

/-! ## Calls in any order -/

/-- The stations between the calls of an engine that was new once, whichever calls are made and whenever, with
the stations at which reports were handed over so far. A call may be given up. Between two calls the world of
the host may become any other. -/
inductive Interleaved (layout : Layout) (μ : Type) [Medium μ] :
    Station (Noted σ) → List (Station (Noted σ)) → Prop
  | new (host : σ) : Interleaved layout μ ⟨{}, ⟨host, []⟩⟩ []
  | later {s : Station (Noted σ)} {past : List (Station (Noted σ))} (host : σ) :
    Interleaved layout μ s past → Interleaved layout μ { s with host := { s.host with host := host } } past
  | call {s : Station (Noted σ)} {past : List (Station (Noted σ))} (c : Call μ) :
    Interleaved layout μ s past →
    Interleaved layout μ (Routine.worldAfter (c.run layout) s) (past ++ c.handovers layout s)

/-- Whether a call made the engine let go of everything and say so: it was a stop, or a tick that ended a
run. -/
def Releases : Call μ → Engine → Engine → Prop
  | .start _, _, _ => False
  | .tick _, before, after => before.isRunning = true ∧ after.isRunning = false
  | .stop, _, _ => True

variable {s : Station (Noted σ)} {past : List (Station (Noted σ))}

theorem Interleaved.start (calls : Interleaved layout μ s past) (store : Store μ) :
    Interleaved layout μ { s with engine := s.engine.start store } past := by
  have called := calls.call (.start store)
  rwa [handovers, List.append_nil] at called

theorem Interleaved.handed_eq (calls : Interleaved layout μ s past) :
    s.host.handed = past.map fun m => (m.host.host, m.engine.heldReport) := by
  induction calls with
  | new host => rfl
  | later host _ ih => exact ih
  | call c _ ih => rw [handed_worldAfter_run, ih, List.map_append]

theorem Interleaved.report_eq (calls : Interleaved layout μ s past) :
    s.engine.report = (past.map fun m => m.engine.heldReport).getLastD .empty := by
  induction calls with
  | new host => rfl
  | later host _ ih => exact ih
  | call c _ ih => rw [report_worldAfter_run, ih, List.map_append, Report.getLastD_append]

theorem report_of_releases {c : Call μ} {before after : Station σ} (back : c.run layout before = .ok () after)
    (releases : c.Releases before.engine after.engine) : after.engine.report = .empty := by
  cases c with
  | start store => cases releases
  | tick store =>
    obtain ⟨running, stopped⟩ := releases
    rw [(Station.tick_ok back).1] at stopped ⊢
    exact before.engine.report_tick_of_stops layout store.scriptByte _ running stopped
  | stop =>
    rw [(Station.perform_ok back).1]
    exact before.engine.tidy_stopping.report_eq_empty rfl

/-- The last report is empty just if nothing was held when it was handed over but a key without a code. -/
theorem Interleaved.isEmpty_report_iff (calls : Interleaved layout μ s past) :
    s.engine.report.isEmpty = true ↔
      ∀ m ∈ past.getLast?, m.engine.modifiers = 0 ∧ ∀ code ∈ m.engine.keys.toList, code = 0 := by
  rw [calls.report_eq]
  rcases past.eq_nil_or_concat' with rfl | ⟨before, m, rfl⟩
  · simp
  · rw [List.map_append, Report.getLastD_append, List.getLast?_concat]
    simp [Engine.heldReport, Report.isEmpty_ofState_iff]

/-- Whichever calls were made of an engine and whenever: a start hands nothing over. When it comes back, the
engine holds nothing, and its last report is still the one that was handed over last. That report is empty
just if nothing was held then but a key without a code. So it is empty if the engine was only ever started
while it was not running, or if the last thing it did before was to stop or to end a run. -/
theorem start_shows_nothing_iff (calls : Interleaved layout μ s past) (store : Store μ) :
    ∃ t, (start store).run layout s = .ok () t ∧ t.host = s.host ∧
      t.engine.modifiers = 0 ∧ t.engine.keys = .empty ∧
      t.host.handed =
        past.map (fun m => (m.host.host, Report.ofState m.engine.modifiers m.engine.keys)) ∧
      t.engine.report = (t.host.handed.map Prod.snd).getLastD .empty ∧
      (t.engine.report.isEmpty = true ↔
        ∀ m ∈ past.getLast?, m.engine.modifiers = 0 ∧ ∀ code ∈ m.engine.keys.toList, code = 0) ∧
      (Reached layout μ s → s.engine.isRunning = false → t.engine.report.isEmpty = true) ∧
      ∀ (c : Call μ) (before after : Station (Noted σ)), c.run layout before = .ok () after →
        c.Releases before.engine after.engine → after.engine = s.engine →
        t.engine.report.isEmpty = true := by
  have handed := calls.handed_eq
  refine ⟨{ s with engine := s.engine.start store }, rfl, rfl, rfl, rfl, handed, ?_,
    calls.isEmpty_report_iff, ?_, ?_⟩
  · show s.engine.report = (s.host.handed.map Prod.snd).getLastD .empty
    rw [handed, List.map_map]
    exact calls.report_eq
  · intro reached still
    have shown : s.engine.report = .empty := reached.tidy.report_eq_empty still
    show s.engine.report.isEmpty = true
    rw [shown, Report.isEmpty_empty]
  · intro c before after back releases same
    have shown : s.engine.report = .empty := same ▸ report_of_releases back releases
    show s.engine.report.isEmpty = true
    rw [shown, Report.isEmpty_empty]

end Call

/-- A script that holds a key down and then waits. -/
def Store.heldKey : Store Memory :=
  .ofScript (Instr.encode (.keyDown 0x04) ++ Instr.encode (.delay 500) ++ Instr.encode .finish)

/-- An engine that was started on it, before the first tick. -/
def Station.beforeHeldKey : Station (Noted Bench) :=
  ⟨.start {} .heldKey, ⟨{}, []⟩⟩

/-- The same engine after the first tick. -/
def Station.atHeldKey : Station (Noted Bench) :=
  Routine.worldAfter ((Call.tick Store.heldKey).run .us) .beforeHeldKey

namespace Call

theorem interleaved_atHeldKey :
    Interleaved .us Memory .atHeldKey ((tick Store.heldKey).handovers .us .beforeHeldKey) := by
  have started : Interleaved .us Memory .beforeHeldKey [] :=
    (Interleaved.new ({} : Bench)).start Store.heldKey
  have ticked := started.call (.tick .heldKey)
  rwa [List.nil_append] at ticked

/-- The key is held, and the engine is started over, on an erased store. -/
theorem start_shows_nothing_iff_heldKey :
    Interleaved .us Memory .atHeldKey ((tick Store.heldKey).handovers .us .beforeHeldKey) ∧
    ∃ t, (start (.mount ({} : Memory))).run .us .atHeldKey = .ok () t ∧
      t.engine.modifiers = 0 ∧ t.engine.keys = .empty ∧
      (t.engine.report.isEmpty = true ↔
        ∀ m ∈ ((tick Store.heldKey).handovers .us .beforeHeldKey).getLast?,
          m.engine.modifiers = 0 ∧ ∀ code ∈ m.engine.keys.toList, code = 0) ∧
      t.engine.report.pressed = [0x04] := by
  obtain ⟨t, back, -, modifiers, keys, -, -, empty, -⟩ :=
    start_shows_nothing_iff interleaved_atHeldKey (.mount ({} : Memory))
  refine ⟨interleaved_atHeldKey, t, back, modifiers, keys, empty, ?_⟩
  cases back
  decide +kernel

/-- An engine that is started over while a key is held leaves the host with the key. -/
theorem not_empty_after_restart :
    ¬ ∀ (s : Station (Noted Bench)) (past : List (Station (Noted Bench))),
      Interleaved .us Memory s past → ∀ (store : Store Memory) (t : Station (Noted Bench)),
      (start store).run .us s = .ok () t → t.engine.report.isEmpty = true := by
  intro empty
  have nothing : (Station.atHeldKey.engine.start .heldKey).report.isEmpty = true :=
    empty _ _ interleaved_atHeldKey .heldKey { Station.atHeldKey with engine := _ } rfl
  have something : (Station.atHeldKey.engine.start .heldKey).report.isEmpty = false := by decide +kernel
  rw [something] at nothing
  cases nothing

end Call

end Autotype
