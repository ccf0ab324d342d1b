import Autotype.Proofs.Performance
import Autotype.Proofs.Recorded

/-!
# Runs of an engine

A run is what happens when an engine is ticked for as long as it is running: each of these ticks comes
back, and no delay keeps the engine running for ever. Nothing else is asked of the world, which may do
what it likes during a tick and between two ticks. What an engine does from one point of its script to
another is stated without the number of ticks that it takes (`Run.Leads`), so that pieces can be put
together (`Run.Leads.trans`).
-/

namespace Autotype

/-- A run of an engine on the script in a store, as the stations before each tick. -/
structure Run (layout : Layout) {μ : Type} [Medium μ] (store : Store μ) (σ : Type) [Surroundings σ]
    [Transport σ] where
  /-- The station before a tick. -/
  station : Nat → Station (Recorded σ)
  /-- A tick that is due comes back; until the next one only the world of the host changes. -/
  ticks : ∀ i, (station i).engine.isRunning = true →
    ∃ t, Station.tick layout store (station i) = .ok () t ∧
      (station (i + 1)).engine = t.engine ∧ (station (i + 1)).host.sent = t.host.sent
  /-- At some later tick the time of a delay is over, or the engine is not running any more. -/
  delays : ∀ i since span, (station i).engine.state = .delaying since span →
    ∃ j, i ≤ j ∧ (elapsed (Surroundings.now (station j)) since span = true ∨
      (station j).engine.isRunning = false)

namespace Run

variable {layout : Layout} {σ μ : Type} [Medium μ] {store : Store μ} [Surroundings σ] [Transport σ]

/-- Ticks that come back one after the other until the engine is not running any more are a run. -/
def ofLast (station : Nat → Station (Recorded σ)) (last : Nat)
    (ticks : ∀ i < last, ∃ t, Station.tick layout store (station i) = .ok () t ∧
      (station (i + 1)).engine = t.engine ∧ (station (i + 1)).host.sent = t.host.sent)
    (stopped : (station last).engine.isRunning = false) : Run layout store σ where
  station i := station (min i last)
  ticks i running := by
    by_cases before : i < last
    · rw [Nat.min_eq_left (Nat.le_of_lt before), Nat.min_eq_left before]
      exact ticks i before
    · rw [Nat.min_eq_right (Nat.le_of_not_lt before), stopped] at running
      cases running
  delays i _ _ _ := by
    refine ⟨max i last, Nat.le_max_left i last, .inr ?_⟩
    rw [Nat.min_eq_right (Nat.le_max_right i last)]
    exact stopped

def engine (run : Run layout store σ) (i : Nat) : Engine :=
  (run.station i).engine

def now (run : Run layout store σ) (i : Nat) : UInt32 :=
  Surroundings.now (run.station i)

def sent (run : Run layout store σ) (i : Nat) : List Report :=
  (run.station i).host.sent

variable (run : Run layout store σ)

theorem engine_succ {i : Nat} (running : (run.engine i).isRunning = true) :
    run.engine (i + 1) = (run.engine i).tick layout store.scriptByte (run.now i) := by
  obtain ⟨t, hw, he, -⟩ := run.ticks i running
  exact he.trans (Station.tick_ok hw).1

theorem sent_succ {i : Nat} (running : (run.engine i).isRunning = true) :
    run.sent (i + 1) = run.sent i ++
      (run.engine i).reports ((run.engine i).actions layout store.scriptByte (run.now i)) := by
  obtain ⟨t, hw, -, hs⟩ := run.ticks i running
  exact hs.trans (Station.sent_tick hw)

/-- Whether the engine of a run, from some tick on, stays running until it is of this kind and has sent
just these reports. -/
def Reaches (i : Nat) (reports : List Report) (Q : Engine → Prop) : Prop :=
  ∃ j, i ≤ j ∧ Q (run.engine j) ∧ run.sent j = run.sent i ++ reports ∧
    ∀ k, i ≤ k → k < j → (run.engine k).isRunning = true

/-- Whether an engine of the first kind always comes to be of the second kind, with just these reports. -/
def Leads (P : Engine → Prop) (reports : List Report) (Q : Engine → Prop) : Prop :=
  ∀ i, P (run.engine i) → run.Reaches i reports Q

variable {run} {i : Nat} {as bs : List Report} {P Q R : Engine → Prop}

theorem Reaches.here (there : Q (run.engine i)) : run.Reaches i [] Q := by
  refine ⟨i, Nat.le_refl i, there, (List.append_nil _).symm, ?_⟩
  intro k hik hki
  omega

theorem Reaches.trans (first : run.Reaches i as Q) (second : run.Leads Q bs R) :
    run.Reaches i (as ++ bs) R := by
  obtain ⟨j, hij, hj, hsj, hrj⟩ := first
  obtain ⟨k, hjk, hk, hsk, hrk⟩ := second j hj
  refine ⟨k, Nat.le_trans hij hjk, hk, ?_, ?_⟩
  · rw [hsk, hsj, List.append_assoc]
  · intro n hin hnk
    by_cases before : n < j
    · exact hrj n hin before
    · exact hrk n (Nat.le_of_not_lt before) hnk

/-- One tick, and on from there. -/
theorem Reaches.tick (due : (run.engine i).isRunning = true)
    (shown : (run.engine i).reports
      ((run.engine i).actions layout store.scriptByte (run.now i)) = as)
    (later : run.Reaches (i + 1) bs Q) : run.Reaches i (as ++ bs) Q := by
  obtain ⟨j, hij, hj, hsj, hrj⟩ := later
  refine ⟨j, Nat.le_of_succ_le hij, hj, ?_, ?_⟩
  · rw [hsj, run.sent_succ due, shown, List.append_assoc]
  · intro k hik hkj
    by_cases first : k = i
    · rw [first]
      exact due
    · exact hrj k (by omega) hkj

theorem Leads.refl (P : Engine → Prop) : run.Leads P [] P :=
  fun _ there => .here there

theorem Leads.trans (first : run.Leads P as Q) (second : run.Leads Q bs R) :
    run.Leads P (as ++ bs) R :=
  fun i there => (first i there).trans second

theorem Leads.tick (running : ∀ e, P e → e.isRunning = true)
    (step : ∀ e now, P e → Q (e.tick layout store.scriptByte now) ∧
      e.reports (e.actions layout store.scriptByte now) = as) :
    run.Leads P as Q := by
  intro i there
  have due := running _ there
  obtain ⟨next, shown⟩ := step (run.engine i) (run.now i) there
  rw [← run.engine_succ due] at next
  have one := Reaches.tick due shown (.here next)
  rwa [List.append_nil] at one

end Run

/-! ## Points of a script -/

namespace Engine

/-- Whether an engine of a script of this length is in this state, at this offset, in this loop, with
this held, and nothing has gone wrong. -/
def Stands (state : RunState) (length pc : Nat) (loop : Option Loop) (h : Held) (e : Engine) : Prop :=
  e.control = ⟨state, pc, length, loop, none⟩ ∧ e.held = h

/-- Whether an engine is about to carry out the instruction at this offset. -/
abbrev At (length pc : Nat) (loop : Option Loop) (h : Held) : Engine → Prop :=
  Stands .running length pc loop h

theorem Stands.isRunning {state : RunState} {length pc : Nat} {loop : Option Loop} {h : Held}
    {e : Engine} (stands : e.Stands state length pc loop h) : e.isRunning = state.isRunning := by
  rw [isRunning_eq, stands.1]

theorem Stands.actions_delaying {since span : UInt32} {length pc : Nat} {loop : Option Loop}
    {h : Held} {e : Engine} (stands : e.Stands (.delaying since span) length pc loop h)
    (layout : Layout) (byteAt : Nat → UInt8) (now : UInt32) :
    e.actions layout byteAt now = if elapsed now since span then [.enter .running] else [] := by
  have state : e.state = .delaying since span := congrArg Control.state stands.1
  simp only [actions, state]

end Engine

namespace Run

variable {layout : Layout} {σ μ : Type} [Medium μ] {store : Store μ} [Surroundings σ] [Transport σ]
  {run : Run layout store σ} {length pc : Nat} {loop : Option Loop} {h : Held}

theorem reaches_of_elapsed {since span : UInt32} {i : Nat}
    (there : (run.engine i).Stands (.delaying since span) length pc loop h)
    (passed : elapsed (run.now i) since span = true) :
    run.Reaches i [] (Engine.At length pc loop h) := by
  have acts : (run.engine i).actions layout store.scriptByte (run.now i) = [.enter .running] := by
    rw [there.actions_delaying, if_pos passed]
  have next : (run.engine (i + 1)).At length pc loop h := by
    rw [run.engine_succ there.isRunning, Engine.tick, acts]
    refine ⟨?_, there.2⟩
    rw [Engine.acts_cons, Engine.acts_nil, Engine.control_enter, there.1]
  exact Reaches.tick there.isRunning (congrArg _ acts) (.here next)

/-- A delay passes without a report and without any other change. -/
theorem leads_delaying (since span : UInt32) :
    run.Leads (Engine.Stands (.delaying since span) length pc loop h) []
      (Engine.At length pc loop h) := by
  intro i there
  obtain ⟨j, hij, passed⟩ := run.delays i since span (congrArg Control.state there.1)
  obtain ⟨d, rfl⟩ := Nat.exists_eq_add_of_le hij
  clear hij
  -- by induction on the number of ticks that may find the time not over yet
  induction d generalizing i with
  | zero =>
    rcases passed with passed | stopped
    · exact reaches_of_elapsed there passed
    · exact absurd (there.isRunning.symm.trans stopped) Bool.noConfusion
  | succ d ih =>
    by_cases now : elapsed (run.now i) since span = true
    · exact reaches_of_elapsed there now
    · have quiet : (run.engine i).actions layout store.scriptByte (run.now i) = [] := by
        rw [there.actions_delaying, if_neg now]
      have same : run.engine (i + 1) = run.engine i := by
        rw [run.engine_succ there.isRunning, Engine.tick, quiet, Engine.acts_nil]
      have later := ih (i + 1) (same ▸ there) (by rwa [Nat.add_right_comm, Nat.add_assoc])
      exact Reaches.tick there.isRunning (congrArg _ quiet) later

end Run

end Autotype
