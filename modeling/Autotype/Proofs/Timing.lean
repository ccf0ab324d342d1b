import Autotype.Proofs.Ending
import Autotype.Proofs.Shown
import Mathlib.Data.Nat.Init

/-!
# Keystrokes and time

How long a run takes depends on the clock, and how its ticks are spread on how often the host polls; what
is typed depends on neither. With each delay passed over (`Control.awake`), a tick leads to the same place
whatever the clock reads, and a tick within a delay leads nowhere. So what an engine plays from some point
until it stops is a matter of that point, of the script and of what is held there (`Control.Plays`), and any
two runs play the same (`Run.same_keystrokes`).
-/

namespace Autotype

namespace Control

variable {layout : Layout} {byteAt : Nat → UInt8}

/-- Where an engine stands once the delay is over in which it may be. -/
def awake (c : Control) : Control :=
  match c.state with
  | .delaying _ _ => { c with state := .running }
  | _ => c

theorem awake_of_running {c : Control} (running : c.state = .running) : c.awake = c := by
  simp only [awake, running]

theorem awake_of_stopped {c : Control} (stopped : c.state.isRunning = false) : c.awake = c := by
  unfold awake
  split
  · next state =>
    rw [state] at stopped
    cases stopped
  · rfl

/-- Two readings of the clock lead to places that differ in a delay at most. -/
theorem awake_tick (now now' : UInt32) {c : Control} (running : c.state = .running) :
    (c.tick byteAt now).awake = (c.tick byteAt now').awake := by
  cases read : Script.decode ⟨c.length, byteAt⟩ c.pc with
  | whole i next =>
    rw [tick_whole running read, tick_whole running read]
    cases i <;> rfl
  | cut typed offset | unknown opcode => simp only [tick, running, read]

theorem awake_delaying (now : UInt32) {since span : UInt32} {c : Control}
    (delaying : c.state = .delaying since span) : (c.tick byteAt now).awake = c.awake := by
  simp only [tick, delaying]
  by_cases ended : elapsed now since span = true
  · rw [if_pos ended]
    simp only [awake, delaying]
  · rw [if_neg ended]

theorem perform_delaying {since span : UInt32} {c : Control} (delaying : c.state = .delaying since span) :
    c.perform layout byteAt = .rest := by
  simp only [perform, delaying]

/-- What is played from some point on while something is held, and where that ends, if delays take no
time. -/
inductive Plays (layout : Layout) (byteAt : Nat → UInt8) : Control → Held → List Report → Control → Prop
  | stopped {c : Control} {h : Held} : c.state.isRunning = false → Plays layout byteAt c h [] c
  | tick {c last : Control} {h : Held} {reports : List Report} : c.state = .running →
    Plays layout byteAt (c.tick byteAt 0).awake (c.perform layout byteAt h).2 reports last →
    Plays layout byteAt c h ((c.perform layout byteAt h).1 ++ reports) last

theorem Plays.unique {c last last' : Control} {h : Held} {reports reports' : List Report}
    (plays : Plays layout byteAt c h reports last) (plays' : Plays layout byteAt c h reports' last') :
    reports = reports' ∧ last = last' := by
  induction plays generalizing reports' last' with
  | stopped still =>
    cases plays' with
    | stopped _ => exact ⟨rfl, rfl⟩
    | tick running _ =>
      rw [running] at still
      cases still
  | tick running _ ih =>
    cases plays' with
    | stopped still =>
      rw [running] at still
      cases still
    | tick _ later =>
      obtain ⟨same, there⟩ := ih later
      rw [same]
      exact ⟨rfl, there⟩

end Control

namespace Run

variable {layout : Layout} {σ τ μ : Type} [Medium μ] {store : Store μ} [Surroundings σ] [Transport σ]
  [Surroundings τ] [Transport τ]

/-- From each of its ticks on, a run that stops plays what there is to play. -/
theorem plays (run : Run layout store σ) {i n : Nat} (le : i ≤ n)
    (running : ∀ k < n, (run.engine k).isRunning = true) (stopped : (run.engine n).isRunning = false) :
    ∃ reports, run.sent n = run.sent i ++ reports ∧
      Control.Plays layout store.scriptByte (run.control i).awake (run.engine i).held reports
        (run.control n) := by
  -- from the last tick backwards
  induction le using Nat.decreasingInduction with
  | self =>
    have still : (run.control n).state.isRunning = false := stopped
    refine ⟨[], (List.append_nil _).symm, ?_⟩
    rw [Control.awake_of_stopped still]
    exact .stopped still
  | of_succ i before ih =>
    obtain ⟨reports, sent, later⟩ := ih
    have due : (run.control i).state.isRunning = true := running i before
    obtain ⟨shown, held⟩ := (run.engine i).shows_tick layout store.scriptByte (run.now i)
    rw [← run.engine_succ due] at held
    have next : run.control (i + 1) = (run.control i).tick store.scriptByte (run.now i) :=
      control_succ due
    rw [held, next] at later
    rw [run.sent_succ due, shown, List.append_assoc] at sent
    refine ⟨_, sent, ?_⟩
    -- a tick of a delay has no counterpart in what is played
    cases state : (run.control i).state with
    | running =>
      rw [Control.awake_tick _ 0 state] at later
      rw [Control.awake_of_running state]
      exact .tick state later
    | delaying since span =>
      have nothing : (run.engine i).control.perform layout store.scriptByte = .rest :=
        Control.perform_delaying state
      rw [Control.awake_delaying _ state] at later
      rw [nothing] at later ⊢
      exact later
    | idle | finished | failed =>
      rw [state] at due
      cases due

/-- Two runs on a store that come to an end play the same, whatever the clocks read, however the ticks are
spread and however long the hosts keep the engines waiting; and they end at the same place in the same
way. -/
theorem same_keystrokes (run : Run layout store σ) (other : Run layout store τ) {e e' : Engine} {n n' : Nat}
    (started : run.engine 0 = e.start store) (running : ∀ k < n, (run.engine k).isRunning = true)
    (stopped : (run.engine n).isRunning = false)
    (started' : other.engine 0 = e'.start store) (running' : ∀ k < n', (other.engine k).isRunning = true)
    (stopped' : (other.engine n').isRunning = false) :
    ∃ reports, run.sent n = run.sent 0 ++ reports ∧ other.sent n' = other.sent 0 ++ reports ∧
      (run.engine n).state = (other.engine n').state ∧ (run.engine n).fault = (other.engine n').fault ∧
      (run.engine n).pc = (other.engine n').pc := by
  obtain ⟨reports, sent, plays⟩ := run.plays (Nat.zero_le n) running stopped
  obtain ⟨reports', sent', plays'⟩ := other.plays (Nat.zero_le n') running' stopped'
  have there : (run.control 0).awake = (other.control 0).awake := by
    rw [control, control, started, started']
    rfl
  have nothing : (run.engine 0).held = (other.engine 0).held := by
    rw [started, started']
    rfl
  rw [there, nothing] at plays
  obtain ⟨same, last⟩ := plays.unique plays'
  refine ⟨reports, sent, same ▸ sent', congrArg Control.state last, congrArg Control.fault last,
    congrArg Control.pc last⟩

/-- The run on that script at a slower host whose clock is about to start over, of an engine that was used
before. -/
def slowCutRun : Run .us .cutScript Bench :=
  .onBench ⟨.start { state := .failed, fault := some (.truncated 3) } .cutScript,
    ⟨{ now := 0xFFFFFFFD, msPerPoll := 7, busyAfter := 3, budget := 60 }, []⟩⟩ 12 (by decide +kernel)
    (by decide +kernel)

theorem same_keystrokes_cutScript :
    cutRun.engine 0 = Engine.start {} .cutScript ∧ (∀ k < 12, (cutRun.engine k).isRunning = true) ∧
    (cutRun.engine 12).isRunning = false ∧
    slowCutRun.engine 0 = Engine.start { state := .failed, fault := some (.truncated 3) } .cutScript ∧
    (∀ k < 12, (slowCutRun.engine k).isRunning = true) ∧ (slowCutRun.engine 12).isRunning = false ∧
    ∃ reports, cutRun.sent 12 = cutRun.sent 0 ++ reports ∧
      slowCutRun.sent 12 = slowCutRun.sent 0 ++ reports ∧
      (cutRun.engine 12).state = (slowCutRun.engine 12).state ∧
      (cutRun.engine 12).fault = (slowCutRun.engine 12).fault ∧
      (cutRun.engine 12).pc = (slowCutRun.engine 12).pc := by
  have running : ∀ k < 12, (cutRun.engine k).isRunning = true := by decide +kernel
  have stopped : (cutRun.engine 12).isRunning = false := by decide +kernel
  have running' : ∀ k < 12, (slowCutRun.engine k).isRunning = true := by decide +kernel
  have stopped' : (slowCutRun.engine 12).isRunning = false := by decide +kernel
  exact ⟨rfl, running, stopped, rfl, running', stopped',
    cutRun.same_keystrokes slowCutRun rfl running stopped rfl running' stopped'⟩

end Run

end Autotype
