import Autotype.Bench.Basic
import Autotype.Proofs.Committed
import Autotype.Proofs.Shown

/-!
# Calls of an engine

Whoever has an engine can start it, tick it and stop it, with any store, while the world of the host goes
on as it likes. Between two calls an engine is tidy (`Engine.Tidy`): the host was shown what is held, and an
engine that is not running holds nothing. Within a call this does not hold, since a tick changes modifiers
and keys before it reports them; so a call is followed from one report to the next by the stations at which
a report is handed over (`Call.handovers`), also when it never comes back. They are compared with what the
world itself notes of each report (`Noted`).
-/

namespace Autotype

/-- A tick that ends a script lets everything go, wherever in an instruction it ends, and reports that at
last. -/
theorem Control.perform_of_stops (layout : Layout) {byteAt : Nat → UInt8} {now : UInt32} {c : Control}
    (running : c.state.isRunning = true) (stops : (c.tick byteAt now).state.isRunning = false) (h : Held) :
    ∃ reports, c.perform layout byteAt h = (reports ++ [Held.report {}], {}) := by
  cases state : c.state with
  | running =>
    cases read : Script.decode ⟨c.length, byteAt⟩ c.pc with
    | whole i next =>
      rw [tick_whole state read] at stops
      cases i with
      | finish =>
        simp only [perform, state, read]
        exact ⟨[], rfl⟩
      | _ => cases stops
    | cut typed offset =>
      simp only [perform, state, read]
      exact ⟨_, rfl⟩
    | unknown opcode =>
      simp only [perform, state, read]
      exact ⟨[], rfl⟩
  | delaying since span =>
    simp only [tick, state] at stops
    split at stops
    · cases stops
    · rw [state] at stops
      cases stops
  | idle | finished | failed =>
    rw [state] at running
    cases running

/-! ## Tidy engines -/

namespace Engine

/-- Whether the host was shown what is held, and nothing is held unless the engine is running. -/
structure Tidy (e : Engine) : Prop where
  shown : e.report = e.heldReport
  released : e.isRunning = false → e.held = {}

theorem tidy_new : Tidy {} :=
  ⟨Report.ofState_empty.symm, fun _ => rfl⟩

theorem tidy_stopping (e : Engine) : (e.acts stopping).Tidy :=
  ⟨rfl, fun _ => rfl⟩

theorem actions_of_not_running {e : Engine} (still : e.isRunning = false) (layout : Layout)
    (byteAt : Nat → UInt8) (now : UInt32) : e.actions layout byteAt now = [] := by
  unfold isRunning at still
  unfold actions
  cases state : e.state with
  | running | delaying =>
    rw [state] at still
    cases still
  | idle | finished | failed => rfl

namespace Tidy

variable {e : Engine}

theorem report_eq_empty (tidy : e.Tidy) (still : e.isRunning = false) : e.report = .empty := by
  have nothing : e.held.report = Held.report {} := congrArg Held.report (tidy.released still)
  exact tidy.shown.trans (nothing.trans Report.ofState_empty)

/-- Starting lets go of everything without a report, so nothing may be held then. -/
theorem start {μ : Type} [Medium μ] (tidy : e.Tidy) (still : e.isRunning = false) (store : Store μ) :
    (e.start store).Tidy :=
  ⟨(tidy.report_eq_empty still).trans Report.ofState_empty.symm, fun _ => rfl⟩

theorem tick (tidy : e.Tidy) (layout : Layout) (byteAt : Nat → UInt8) (now : UInt32) :
    (e.tick layout byteAt now).Tidy := by
  obtain ⟨reports, held⟩ := e.shows_tick layout byteAt now
  constructor
  · have last := e.report_acts (e.actions layout byteAt now)
    have faithful := e.control.faithful_perform layout byteAt e.held
    have before : e.report = e.held.report := tidy.shown
    rw [reports, before, faithful, ← held] at last
    exact last
  · intro stops
    -- the engine stops in this tick and lets go, or it had stopped before and does nothing
    cases running : e.isRunning with
    | true =>
      rw [isRunning_eq] at running
      rw [isRunning_eq, control_tick] at stops
      obtain ⟨_, performed⟩ := Control.perform_of_stops layout running stops e.held
      rw [held, performed]
    | false =>
      rw [Engine.tick, actions_of_not_running running, acts_nil]
      exact tidy.released running

end Tidy

end Engine

/-! ## What is handed over -/

/-- A world of a host, with a note of each report and of what the host was like when it was handed over. -/
structure Noted (σ : Type) where
  host : σ
  handed : List (σ × Report) := []

namespace Noted

variable {σ : Type} [Surroundings σ]

instance : Surroundings (Noted σ) where
  now w := Surroundings.now w.host
  poll w :=
    match Surroundings.poll w.host with
    | .ok u host => .ok u { w with host := host }
    | .error e host => .error e { w with host := host }
  patience w := Surroundings.patience w.host
  patience_poll {w w'} h := by
    split at h
    · next poll =>
      cases h
      exact Surroundings.patience_poll poll
    · cases h

instance [Transport σ] : Transport (Noted σ) where
  isReady w := Transport.isReady w.host
  isConnected w := Transport.isConnected w.host
  send report w :=
    { host := Transport.send report w.host, handed := w.handed ++ [(w.host, report)] }
  patience_send report w := Transport.patience_send report w.host

end Noted

namespace Routine

variable {σ α : Type}

/-- How a routine leaves its world, whether it comes back or not. -/
def worldAfter (routine : Routine σ α) (s : σ) : σ :=
  match routine s with
  | .ok _ t | .error _ t => t

end Routine

/-- What a poll keeps, whether it comes back or not, is kept by a wait. -/
theorem pollUntil_keeps {σ : Type} [Surroundings σ] {done : σ → Bool} {P : σ → Prop}
    (step : ∀ s, P s → P (Routine.worldAfter Surroundings.poll s)) {s : σ} (first : P s) :
    P (Routine.worldAfter (pollUntil done) s) := by
  induction s using Surroundings.poll_induction with
  | step s ih =>
    have polled := step s first
    unfold Routine.worldAfter at polled ⊢
    rw [pollUntil_eq]
    by_cases here : done s = true
    · rw [if_pos here]
      exact first
    · rw [if_neg here]
      cases poll : Surroundings.poll s with
      | ok u t =>
        rw [poll] at polled
        exact ih t poll polled
      | error u t =>
        rw [poll] at polled
        exact polled

namespace Station

variable {σ : Type} [Surroundings σ] [Transport σ]

/-- The station at the moment at which an action hands over a report, if it comes to that. -/
def handover (a : Action) (s : Station σ) : Option (Station σ) :=
  match a with
  | .send =>
    match pollUntil Transport.isReady s with
    | .ok _ m => some m
    | .error _ _ => none
  | _ => none

/-- The stations at which actions hand over a report, until they are done or given up. -/
def handovers : List Action → Station σ → List (Station σ)
  | [], _ => []
  | a :: as, s =>
    (handover a s).toList ++
      match act a s with
      | .ok _ t => handovers as t
      | .error _ _ => []

theorem ready_of_handover {a : Action} {s m : Station σ} (handed : handover a s = some m) :
    Transport.isReady m.host = true := by
  unfold handover at handed
  split at handed
  · split at handed
    · next wait =>
      cases handed
      obtain ⟨-, ready, -⟩ := pollUntil_ok (P := fun _ => True) (fun _ _ _ _ _ => trivial) trivial wait
      exact ready
    · cases handed
  · cases handed

theorem ready_of_handovers {as : List Action} {s m : Station σ} (mem : m ∈ handovers as s) :
    Transport.isReady m.host = true := by
  induction as generalizing s with
  | nil => cases mem
  | cons a as ih =>
    rcases List.mem_append.mp mem with first | later
    · exact ready_of_handover (Option.mem_toList.mp first)
    · split at later
      · exact ih later
      · cases later

theorem handed_worldAfter_act (a : Action) (s : Station (Noted σ)) :
    (Routine.worldAfter (act a) s).host.handed =
      s.host.handed ++ (handover a s).toList.map fun m => (m.host.host, m.engine.heldReport) := by
  have polls : ∀ u : Station (Noted σ), u.host.handed = s.host.handed →
      (Routine.worldAfter Surroundings.poll u).host.handed = s.host.handed := by
    intro u same
    simp only [Routine.worldAfter, Surroundings.poll, onHost]
    cases Surroundings.poll u.host.host <;> exact same
  cases a with
  | send =>
    have waited : (Routine.worldAfter (pollUntil Transport.isReady) s).host.handed = s.host.handed :=
      pollUntil_keeps polls rfl
    simp only [Routine.worldAfter, act, handover, bind, EStateM.bind] at waited ⊢
    cases wait : pollUntil Transport.isReady s with
    | ok u m =>
      rw [wait] at waited
      show m.host.handed ++ [(m.host.host, m.engine.heldReport)] = s.host.handed ++ [(m.host.host, _)]
      rw [waited]
    | error u t =>
      rw [wait] at waited
      exact waited.trans (List.append_nil _).symm
  | poll => exact (polls s rfl).trans (List.append_nil _).symm
  | _ => exact (List.append_nil _).symm

/-- What is noted is what was held at each handover, whether all actions are done or not. -/
theorem handed_worldAfter_perform (as : List Action) (s : Station (Noted σ)) :
    (Routine.worldAfter (perform as) s).host.handed =
      s.host.handed ++ (handovers as s).map fun m => (m.host.host, m.engine.heldReport) := by
  induction as generalizing s with
  | nil => exact (List.append_nil _).symm
  | cons a as ih =>
    have first := handed_worldAfter_act a s
    simp only [Routine.worldAfter, perform, handovers, bind, EStateM.bind] at first ih ⊢
    cases done : act a s with
    | ok u t =>
      rw [done] at first
      simp only [ih t, first, List.map_append, List.append_assoc]
    | error u t =>
      rw [done] at first
      simp only [first, List.append_nil]

end Station

/-! ## Calls -/

inductive Call (μ : Type) where
  | start (store : Store μ)
  | tick (store : Store μ)
  | stop

namespace Call

variable {σ μ : Type} [Medium μ] [Surroundings σ] [Transport σ]

/-- Whether a call may be made: an engine is started only while it is not running. -/
def Allowed : Call μ → Engine → Prop
  | .start _, e => e.isRunning = false
  | .tick _, _ | .stop, _ => True

def run (layout : Layout) : Call μ → Routine (Station σ) Unit
  | .start store => modify fun s => { s with engine := s.engine.start store }
  | .tick store => Station.tick layout store
  | .stop => Station.stop

/-- The stations at which a call hands over a report, each just before the report. -/
def handovers (layout : Layout) : Call μ → Station σ → List (Station σ)
  | .start _, _ => []
  | .tick store, s =>
    Station.handovers (s.engine.actions layout store.scriptByte (Surroundings.now s)) s
  | .stop, s => Station.handovers Engine.stopping s

/-- The stations between the calls of an engine that was new once. Between two calls the world of the host
may become any other. -/
inductive Reached (layout : Layout) (μ : Type) [Medium μ] : Station σ → Prop
  | new (host : σ) : Reached layout μ ⟨{}, host⟩
  | later {s : Station σ} (host : σ) : Reached layout μ s → Reached layout μ { s with host := host }
  | call {s t : Station σ} (c : Call μ) : Reached layout μ s → c.Allowed s.engine →
    c.run layout s = .ok () t → Reached layout μ t

variable {layout : Layout}

theorem tidy_run {c : Call μ} {s t : Station σ} (tidy : s.engine.Tidy) (allowed : c.Allowed s.engine)
    (back : c.run layout s = .ok () t) : t.engine.Tidy := by
  cases c with
  | start store =>
    cases back
    exact tidy.start allowed store
  | tick store =>
    rw [(Station.tick_ok back).1]
    exact tidy.tick layout store.scriptByte (Surroundings.now s)
  | stop =>
    rw [(Station.perform_ok back).1]
    exact s.engine.tidy_stopping

theorem Reached.tidy {s : Station σ} (reached : Reached layout μ s) : s.engine.Tidy := by
  induction reached with
  | new host => exact Engine.tidy_new
  | later host _ tidy => exact tidy
  | call c _ allowed back tidy => exact tidy_run tidy allowed back

theorem ready_of_handovers {c : Call μ} {s m : Station σ} (mem : m ∈ c.handovers layout s) :
    Transport.isReady m.host = true := by
  cases c with
  | start store => cases mem
  | tick store | stop => exact Station.ready_of_handovers mem

theorem handed_worldAfter_run (c : Call μ) (s : Station (Noted σ)) :
    (Routine.worldAfter (c.run layout) s).host.handed =
      s.host.handed ++ (c.handovers layout s).map fun m => (m.host.host, m.engine.heldReport) := by
  cases c with
  | start store => exact (List.append_nil _).symm
  | tick store => exact Station.handed_worldAfter_perform _ s
  | stop => exact Station.handed_worldAfter_perform Engine.stopping s

/-- Whatever the host does and whichever calls were made of an engine: each report of the next call is
handed over while the host can take it and shows what is held at that moment, and if the call comes back,
the last report shows what is held then. If the engine has stopped, that is nothing, and further ticks show
and change nothing. -/
theorem shows_what_is_held {s : Station (Noted σ)} (reached : Reached layout μ s) (c : Call μ)
    (allowed : c.Allowed s.engine) :
    (∀ m ∈ c.handovers layout s, Transport.isReady m.host.host = true) ∧
    (Routine.worldAfter (c.run layout) s).host.handed =
      s.host.handed ++ (c.handovers layout s).map (fun m =>
        (m.host.host, Report.ofState m.engine.modifiers m.engine.keys)) ∧
    ∀ t, c.run layout s = .ok () t →
      t.engine.report = .ofState t.engine.modifiers t.engine.keys ∧
      (t.engine.state = .idle ∨ t.engine.state = .finished ∨ t.engine.state = .failed →
        t.engine.modifiers = 0 ∧ t.engine.keys = .empty ∧ t.engine.report = .empty ∧
        ∀ (store : Store μ) (host : Noted σ),
          Station.tick layout store { t with host := host } = .ok () { t with host := host }) := by
  refine ⟨fun m mem => ready_of_handovers mem, handed_worldAfter_run c s, ?_⟩
  intro t back
  have tidy := tidy_run reached.tidy allowed back
  refine ⟨tidy.shown, fun stopped => ?_⟩
  have still : t.engine.isRunning = false := by
    rw [Engine.isRunning]
    rcases stopped with idle | finished | failed
    · rw [idle]
      rfl
    · rw [finished]
      rfl
    · rw [failed]
      rfl
  have nothing := tidy.released still
  refine ⟨congrArg Held.modifiers nothing, congrArg Held.keys nothing, tidy.report_eq_empty still, ?_⟩
  intro store host
  have quiet := Engine.actions_of_not_running still layout store.scriptByte (Surroundings.now host)
  show Station.perform (t.engine.actions layout store.scriptByte (Surroundings.now host)) _ = _
  rw [quiet]
  rfl

end Call

/-- A script that is cut off within a text, after a character that needs shift. -/
def Store.cutText : Store Memory :=
  .ofScript [Opcode.text, 3, 0x41, 0x62]

/-- An engine that was started on it, at a host that is busy for two polls after each report. -/
def Station.atCutText : Station (Noted Bench) :=
  ⟨.start {} .cutText, ⟨{ busyAfter := 2 }, []⟩⟩

theorem Call.shows_what_is_held_cutText :
    Reached .us Memory Station.atCutText ∧
    (Call.tick Store.cutText).Allowed Station.atCutText.engine ∧
    ((Call.tick Store.cutText).handovers .us Station.atCutText).length = 6 ∧
    (∀ m ∈ (Call.tick Store.cutText).handovers .us Station.atCutText,
      Transport.isReady m.host.host = true) ∧
    (Routine.worldAfter ((Call.tick Store.cutText).run .us) Station.atCutText).host.handed =
      Station.atCutText.host.handed ++
        ((Call.tick Store.cutText).handovers .us Station.atCutText).map (fun m =>
          (m.host.host, Report.ofState m.engine.modifiers m.engine.keys)) ∧
    ∀ t, (Call.tick Store.cutText).run .us Station.atCutText = .ok () t →
      t.engine.report = .ofState t.engine.modifiers t.engine.keys ∧
      (t.engine.state = .idle ∨ t.engine.state = .finished ∨ t.engine.state = .failed →
        t.engine.modifiers = 0 ∧ t.engine.keys = .empty ∧ t.engine.report = .empty ∧
        ∀ (store : Store Memory) (host : Noted Bench),
          Station.tick .us store { t with host := host } = .ok () { t with host := host }) :=
  have started : Call.Reached .us Memory Station.atCutText :=
    .call (.start .cutText) (.new ⟨{ busyAfter := 2 }, []⟩) rfl rfl
  ⟨started, trivial, by decide +kernel, Call.shows_what_is_held started _ trivial⟩

end Autotype
