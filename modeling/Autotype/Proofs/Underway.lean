import Autotype.Proofs.Control
import Autotype.Proofs.Committed
import Autotype.Proofs.Run

/-!
# Engines under way

An engine that was started on a store and still has work to do has met no fault, reads the script that the
store announces, and is inside the loop that it runs, if any (`Control.Underway`). Every tick after which
there is more to do keeps this, so it holds all along a run (`Run.underway`), and a delay in a run is always
followed by the instruction behind it (`Run.resumes`).
-/

namespace Autotype

/-- The script that an engine reads that was started on a store. -/
def Store.announced {μ : Type} [Medium μ] (s : Store μ) : Script :=
  ⟨s.scriptLength.toNat, s.scriptByte⟩

/-- Whether this is where an engine can stand that was started on a script and still has work to do. -/
structure Control.Underway (s : Script) (c : Control) : Prop where
  running : c.state.isRunning = true
  length : c.length = s.length
  fault : c.fault = none
  inside : ∀ l, c.loop = some l → l.Around c.pc

namespace Control.Underway

variable {s : Script} {c : Control} {now : UInt32}

/-- A tick after which there is more to do carries out an instruction, or it belongs to a delay and leaves
the offset and the loop alone. -/
theorem tick_cases (under : c.Underway s) (goes : (c.tick s.byteAt now).state.isRunning = true) :
    (c.state = .running ∧ ∃ i next, s.decode c.pc = .whole i next ∧ i ≠ .finish ∧ c.pc + 2 ≤ next ∧
      next ≤ s.length ∧
      c.tick s.byteAt now =
        { c with
          state := i.stateAfter now
          pc := (i.arrive next c.loop).1
          loop := (i.arrive next c.loop).2 }) ∨
    (∃ since span, c.state = .delaying since span) ∧
      (c.tick s.byteAt now = c ∨ c.tick s.byteAt now = { c with state := .running }) := by
  cases state : c.state with
  | running =>
    obtain ⟨i, next, read, more⟩ := tick_goes_on state goes
    have led : c.tick s.byteAt now = _ := Control.tick_whole state read
    rw [under.length] at read
    obtain ⟨forward, fits⟩ := Script.advances_of_decode read more
    exact .inl ⟨rfl, i, next, read, more, forward, fits, led⟩
  | delaying since span =>
    refine .inr ⟨⟨since, span, rfl⟩, ?_⟩
    simp only [Control.tick, state]
    by_cases ended : elapsed now since span = true
    · exact .inr (if_pos ended)
    · exact .inl (if_neg ended)
  | idle | finished | failed =>
    have stopped := under.running
    rw [state] at stopped
    cases stopped

theorem tick_whole (under : c.Underway s) (running : c.state = .running) {i : Instr} {next : Nat}
    (read : s.decode c.pc = .whole i next) :
    c.tick s.byteAt now =
      { c with
        state := i.stateAfter now
        pc := (i.arrive next c.loop).1
        loop := (i.arrive next c.loop).2 } := by
  refine Control.tick_whole running ?_
  rw [under.length]
  exact read

theorem tick (under : c.Underway s) (goes : (c.tick s.byteAt now).state.isRunning = true) :
    (c.tick s.byteAt now).Underway s := by
  rcases under.tick_cases goes with ⟨-, i, next, -, -, forward, -, led⟩ | ⟨-, same | same⟩
  · refine ⟨goes, ?_, ?_, ?_⟩
    · rw [led]
      exact under.length
    · rw [led]
      exact under.fault
    · rw [led]
      intro l active
      exact i.arrive_around (by omega) under.inside active
  · rw [same]
    exact under
  · rw [same]
    exact ⟨rfl, under.length, under.fault, under.inside⟩

end Control.Underway

namespace Run

variable {layout : Layout} {σ μ : Type} [Medium μ] {store : Store μ} [Surroundings σ] [Transport σ]
  (run : Run layout store σ)

/-- Where the engine of a run stands before a tick. -/
def control (i : Nat) : Control :=
  (run.engine i).control

variable {run}

theorem control_succ {i : Nat} (due : (run.control i).state.isRunning = true) :
    run.control (i + 1) = (run.control i).tick store.announced.byteAt (run.now i) := by
  rw [control, run.engine_succ due, Engine.control_tick]
  rfl

theorem underway {e : Engine} (started : run.engine 0 = e.start store) {i : Nat}
    (running : ∀ k ≤ i, (run.control k).state.isRunning = true) :
    (run.control i).Underway store.announced := by
  induction i with
  | zero =>
    have first := running 0 (Nat.le_refl 0)
    have there : run.control 0 = (e.start store).control := congrArg Engine.control started
    refine ⟨first, ?_, ?_, ?_⟩
    · rw [there]
      rfl
    · rw [there]
      rfl
    · rw [there]
      intro l active
      cases active
  | succ i ih =>
    have under := ih fun k before => running k (Nat.le_succ_of_le before)
    have next := running (i + 1) (Nat.le_refl _)
    rw [control_succ under.running] at next ⊢
    exact under.tick next

/-- What holds of the offset and the loop before some tick of a run, and is kept by each instruction that is
carried out, holds as long as there is more to do. -/
theorem kept {P : Nat → Option Loop → Prop} {e : Engine} (started : run.engine 0 = e.start store)
    {i j : Nat} (running : ∀ k ≤ j, (run.control k).state.isRunning = true) (later : i ≤ j)
    (step : ∀ k < j, (run.control k).state = .running → ∀ instr next,
      store.announced.decode (run.control k).pc = .whole instr next →
      (run.control k).pc + 2 ≤ next → P (run.control k).pc (run.control k).loop →
      P (instr.arrive next (run.control k).loop).1 (instr.arrive next (run.control k).loop).2)
    (first : P (run.control i).pc (run.control i).loop) :
    P (run.control j).pc (run.control j).loop := by
  induction later with
  | refl => exact first
  | @step j before ih =>
    have known := ih (fun k le => running k (Nat.le_succ_of_le le))
      (fun k less => step k (Nat.lt_succ_of_lt less))
    have under := underway started fun k le => running k (Nat.le_succ_of_le le)
    have goes := running (j + 1) (Nat.le_refl _)
    rw [control_succ under.running] at goes ⊢
    rcases under.tick_cases goes with ⟨state, instr, next, read, -, forward, -, led⟩ | ⟨-, same | same⟩
    · rw [led]
      exact step j (Nat.lt_succ_self j) state instr next read forward known
    · rwa [same]
    · rwa [same]

/-- As long as there is more to do, an instruction is carried out sooner or later from where the engine
stands. -/
theorem resumes {i : Nat} (under : (run.control i).Underway store.announced) :
    ∃ j, i ≤ j ∧ run.control j = { run.control i with state := .running } ∧
      ∀ k, i ≤ k → k < j → (run.control k).state.isRunning = true := by
  have running := under.running
  cases state : (run.control i).state with
  | running =>
    refine ⟨i, Nat.le_refl i, ?_, ?_⟩
    · rw [← state]
    · intro k after before
      omega
  | delaying since span =>
    have there : (run.engine i).Stands (.delaying since span) (run.control i).length (run.control i).pc
        (run.control i).loop (run.engine i).held := by
      refine ⟨?_, rfl⟩
      show run.control i = _
      rw [← state, ← under.fault]
    obtain ⟨j, later, stands, -, meanwhile⟩ := leads_delaying since span i there
    refine ⟨j, later, stands.1.trans ?_, meanwhile⟩
    rw [← under.fault]
  | idle | finished | failed =>
    rw [state] at running
    cases running

end Run

end Autotype
