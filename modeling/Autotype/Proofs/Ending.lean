import Autotype.Proofs.Attention
import Autotype.Proofs.Trial
import Autotype.Proofs.Underway

/-!
# Every script ends

However broken a script is, the engine is through with it after a bounded number of instructions. Outside
loops each instruction leads forward, and so does each pass of a loop, which no loop inside it can send
back; a loop has at most 255 passes, and those of different loops go over different bytes. So the passes
left over the body of a loop, and 255 passes over what is behind it, bound the instructions to come
(`ticksLeft`), and each instruction makes that less.
-/

namespace Autotype

/-! ## What is left to carry out -/

/-- The offset where the passes of a loop end in a script of some length. An empty body is passed like one
of a single byte. -/
def Loop.passEnd (l : Loop) (length : Nat) : Nat :=
  min (l.start + max l.length 1) length

/-- A bound on the instructions carried out in a script of some length from an offset on. -/
def ticksLeft (length pc : Nat) : Option Loop → Nat
  | none => 255 * (length - pc) + 1
  | some l =>
    (l.remaining - 1) * (l.passEnd length - l.start) + (l.passEnd length - pc) +
      255 * (length - l.passEnd length) + 1

theorem ticksLeft_none_lt {length pc next : Nat} (forward : pc < next) (fits : next ≤ length) :
    ticksLeft length next none < ticksLeft length pc none := by
  simp only [ticksLeft]
  omega

theorem ticksLeft_pos (length pc : Nat) (loop : Option Loop) : 0 < ticksLeft length pc loop := by
  cases loop <;> exact Nat.succ_pos _

/-- All passes of a loop take no more than 255 passes over the same bytes. -/
theorem ticksLeft_begun_le {length start size remaining : Nat} (few : remaining ≤ 255)
    (fits : start ≤ length) :
    ticksLeft length start (some ⟨start, size, remaining⟩) ≤ ticksLeft length start none := by
  simp only [ticksLeft]
  generalize stop : Loop.passEnd ⟨start, size, remaining⟩ length = last
  have within : last ≤ length := by
    rw [← stop]
    exact Nat.min_le_right _ _
  have ahead : start ≤ last := by
    rw [← stop, Loop.passEnd]
    exact Nat.le_min.mpr ⟨Nat.le_add_right _ _, fits⟩
  have passes : (remaining - 1) * (last - start) ≤ 254 * (last - start) :=
    Nat.mul_le_mul_right _ (by omega)
  omega

/-- The pass that is begun over again was one of those left. -/
theorem ticksLeft_again_lt {length pc : Nat} {l : Loop} (again : 1 < l.remaining)
    (short : pc < l.passEnd length) :
    ticksLeft length l.start (some { l with remaining := l.remaining - 1 }) <
      ticksLeft length pc (some l) := by
  simp only [ticksLeft]
  have same : Loop.passEnd { l with remaining := l.remaining - 1 } length = l.passEnd length := rfl
  have passes : l.remaining - 1 = l.remaining - 1 - 1 + 1 := by omega
  have one : (l.remaining - 1) * (l.passEnd length - l.start) =
      (l.remaining - 1 - 1) * (l.passEnd length - l.start) + (l.passEnd length - l.start) := by
    rw [passes, Nat.succ_mul]
    rfl
  rw [same]
  omega

theorem ticksLeft_within_lt {length pc past : Nat} {l : Loop} (forward : pc < past)
    (short : pc < l.passEnd length) :
    ticksLeft length past (some l) < ticksLeft length pc (some l) := by
  simp only [ticksLeft]
  omega

theorem ticksLeft_left_lt {length pc past : Nat} {l : Loop} (short : pc < l.passEnd length)
    (left : l.passEnd length ≤ past) :
    ticksLeft length past none < ticksLeft length pc (some l) := by
  simp only [ticksLeft]
  omega

/-- Each instruction leaves less to carry out. -/
theorem Instr.ticksLeft_arrive (i : Instr) {length pc next : Nat} {loop : Option Loop}
    (forward : pc + 2 ≤ next) (fits : next ≤ length) (inside : ∀ l, loop = some l → l.Around pc) :
    ticksLeft length (i.arrive next loop).1 (i.arrive next loop).2 < ticksLeft length pc loop := by
  cases loop with
  | none =>
    have less : ticksLeft length next none < ticksLeft length pc none :=
      ticksLeft_none_lt (by omega) fits
    rcases i.arrive_none next with ⟨same, -⟩ | ⟨count, size, remaining, -, begun, counts⟩
    · rw [same]
      exact less
    · have bound := count.toNat_lt
      rw [begun]
      exact Nat.lt_of_le_of_lt (ticksLeft_begun_le (by omega) fits) less
  | some l =>
    obtain ⟨start, around⟩ := inside l rfl
    have short : pc < l.passEnd length := by
      rw [Loop.passEnd]
      exact Nat.lt_min.mpr ⟨around, by omega⟩
    obtain ⟨past, ahead, ⟨-, led⟩ | ⟨-, again, led⟩ | ⟨behind, -, led⟩⟩ := i.arrive_some next l
    · rw [led]
      exact ticksLeft_within_lt (by omega) short
    · rw [led]
      exact ticksLeft_again_lt again short
    · have left : l.passEnd length ≤ past := by
        have stop : l.stop = l.start + l.length := rfl
        rw [Loop.passEnd]
        refine Nat.le_trans (Nat.min_le_left _ _) ?_
        omega
      rw [led]
      exact ticksLeft_left_lt short left

/-! ## Along a run -/

/-- A tick in which an instruction is carried out, but after which there is nothing more to do, was the last
one of the script or met a fault. -/
theorem Control.tick_stops {byteAt : Nat → UInt8} {now : UInt32} {c : Control}
    (running : c.state = .running) (stops : (c.tick byteAt now).state.isRunning = false) :
    (c.tick byteAt now).state = .finished ∨ (c.tick byteAt now).state = .failed := by
  cases read : Script.decode ⟨c.length, byteAt⟩ c.pc with
  | whole i next =>
    rw [tick_whole running read] at stops ⊢
    cases i with
    | finish => exact .inl rfl
    | _ => cases stops
  | cut typed offset | unknown opcode =>
    simp only [tick, running, read]
    exact .inr trivial

namespace Run

variable {layout : Layout} {σ μ : Type} [Medium μ] {store : Store μ} [Surroundings σ] [Transport σ]
  {run : Run layout store σ} {e : Engine} {i n : Nat}

/-- A delay is left by the first tick that finds its time over. -/
theorem state_of_elapsed {since span : UInt32} (delaying : (run.control i).state = .delaying since span)
    (passed : elapsed (run.now i) since span = true) : (run.control (i + 1)).state = .running := by
  have due : (run.control i).state.isRunning = true := by
    rw [delaying]
    rfl
  rw [control_succ due]
  simp only [Control.tick, delaying, if_pos passed]

/-- The number of ticks, of the first ones of a run, in which an instruction is carried out. -/
def worked (run : Run layout store σ) (n : Nat) : Nat :=
  (List.range n).countP fun k => (run.control k).state == .running

theorem worked_succ (run : Run layout store σ) (n : Nat) :
    run.worked (n + 1) = run.worked n + if (run.control n).state = .running then 1 else 0 := by
  rw [worked, List.range_succ, List.countP_append, List.countP_singleton]
  simp only [beq_iff_eq]
  rfl

/-- What is left to carry out before a tick of a run. -/
def left (run : Run layout store σ) (i : Nat) : Nat :=
  ticksLeft store.announced.length (run.control i).pc (run.control i).loop

/-- A tick after which there is more to do carries out an instruction of those left, or none. -/
theorem left_succ (under : (run.control i).Underway store.announced)
    (goes : (run.control (i + 1)).state.isRunning = true) :
    (run.control i).state = .running ∧ run.left (i + 1) < run.left i ∨
      (run.control i).state ≠ .running ∧ run.left (i + 1) = run.left i := by
  have step : run.control (i + 1) = _ := control_succ under.running
  rw [left, left]
  rw [step] at goes ⊢
  rcases under.tick_cases goes with
    ⟨state, instr, next, -, -, forward, fits, led⟩ | ⟨⟨since, span, delaying⟩, same | same⟩
  · rw [led]
    exact .inl ⟨state, instr.ticksLeft_arrive forward fits under.inside⟩
  · rw [same, delaying]
    exact .inr ⟨RunState.noConfusion, rfl⟩
  · rw [same, delaying]
    exact .inr ⟨RunState.noConfusion, rfl⟩

/-- What was carried out and what is left make no more than there was to do at the start. -/
theorem worked_add_left (started : run.engine 0 = e.start store)
    (running : ∀ k ≤ n, (run.control k).state.isRunning = true) :
    run.worked n + run.left n ≤ 255 * store.announced.length + 1 := by
  induction n with
  | zero =>
    have first : run.control 0 = (e.start store).control := congrArg Engine.control started
    rw [left, first]
    exact Nat.le_of_eq (Nat.zero_add _)
  | succ n ih =>
    have known := ih fun k le => running k (Nat.le_succ_of_le le)
    have under := underway started fun k le => running k (Nat.le_succ_of_le le)
    rw [worked_succ]
    rcases left_succ under (running (n + 1) (Nat.le_refl _)) with ⟨state, less⟩ | ⟨state, same⟩
    · rw [if_pos state]
      omega
    · rw [if_neg state]
      omega

/-- From wherever it stands, an engine that was started comes to an end. -/
theorem stops (started : run.engine 0 = e.start store)
    (running : ∀ k ≤ i, (run.control k).state.isRunning = true) :
    ∃ n, (∀ k ≤ n, (run.control k).state.isRunning = true) ∧ (run.control n).state = .running ∧
      (run.control (n + 1)).state.isRunning = false := by
  -- by induction on what is left
  generalize bound : run.left i = b
  induction b using Nat.strongRecOn generalizing i with
  | ind b ih =>
    have under := underway started running
    obtain ⟨j, later, resumed, meanwhile⟩ := resumes under
    have state : (run.control j).state = .running := congrArg Control.state resumed
    have running' : ∀ k ≤ j, (run.control k).state.isRunning = true := by
      intro k le
      rcases Nat.lt_or_eq_of_le le with before | rfl
      · rcases Nat.lt_or_ge k i with early | late
        · exact running k (Nat.le_of_lt early)
        · exact meanwhile k late before
      · rw [state]
        rfl
    have same : run.left j = b := by
      rw [← bound, left, left, resumed]
    cases goes : (run.control (j + 1)).state.isRunning with
    | false => exact ⟨j, running', state, goes⟩
    | true =>
      rcases left_succ (underway started running') goes with ⟨-, less⟩ | ⟨other, -⟩
      · refine ih (run.left (j + 1)) (same ▸ less) ?_ rfl
        intro k le
        rcases Nat.lt_or_eq_of_le le with before | rfl
        · exact running' k (Nat.le_of_lt_succ before)
        · exact goes
      · exact absurd state other

/-- A run on any script there is comes to the end of the script or to a fault, after no more instructions
than 255 for each byte and one. -/
theorem reaches_end (script : store.hasScript = true) (started : run.engine 0 = e.start store) :
    ∃ n, ((run.engine n).state = .finished ∨ (run.engine n).state = .failed) ∧
      (∀ k < n, (run.engine k).isRunning = true) ∧
      run.worked n ≤ 255 * store.scriptLength.toNat + 1 := by
  have first : (run.control 0).state.isRunning = true := by
    have there : run.control 0 = (e.start store).control := congrArg Engine.control started
    rw [there]
    show (if store.hasScript then RunState.running else .idle).isRunning = true
    rw [if_pos script]
    rfl
  obtain ⟨n, running, state, stopped⟩ := stops (i := 0) started fun k le => by
    rw [Nat.le_zero.mp le]
    exact first
  have step : run.control (n + 1) = _ := control_succ (running n (Nat.le_refl n))
  refine ⟨n + 1, ?_, fun k before => running k (Nat.le_of_lt_succ before), ?_⟩
  · have last := stopped
    rw [step] at last
    rw [show (run.engine (n + 1)).state = (run.control (n + 1)).state from rfl, step]
    exact Control.tick_stops state last
  · have known := worked_add_left started running
    have some := ticksLeft_pos store.announced.length (run.control n).pc (run.control n).loop
    have bound : run.worked n + 1 ≤ 255 * store.announced.length + 1 :=
      Nat.le_trans (Nat.add_le_add_left some _) known
    rw [worked_succ, if_pos state]
    exact bound

end Run

/-! ## Ticks at attentive hosts -/

/-- The stations before each tick of an engine whose host attends to it. -/
structure Course (layout : Layout) {μ : Type} [Medium μ] (store : Store μ) (σ : Type) [Surroundings σ]
    [Transport σ] where
  /-- The station before a tick. -/
  station : Nat → Station (Recorded σ)
  /-- In a tick that is due the host attends to all waits. -/
  attends : ∀ i, (station i).engine.isRunning = true →
    Transport.Attends (((station i).engine.actions layout store.scriptByte
      (Surroundings.now (station i))).countP Action.waits) (station i).host.host
  /-- From a tick that comes back to the next one only the world of the host changes. -/
  next : ∀ i t, (station i).engine.isRunning = true → Station.tick layout store (station i) = .ok () t →
    (station (i + 1)).engine = t.engine ∧ (station (i + 1)).host.sent = t.host.sent
  /-- At some later tick the time of a delay is over, or the engine is not running any more. -/
  delays : ∀ i since span, (station i).engine.state = .delaying since span →
    ∃ j, i ≤ j ∧ (elapsed (Surroundings.now (station j)) since span = true ∨
      (station j).engine.isRunning = false)

namespace Course

variable {layout : Layout} {σ μ : Type} [Medium μ] {store : Store μ} [Surroundings σ] [Transport σ]
  (course : Course layout store σ)

theorem tick_comesBack {i : Nat} (due : (course.station i).engine.isRunning = true) :
    ∃ t, Station.tick layout store (course.station i) = .ok () t :=
  Station.tick_of_attends (Recorded.attends (course.attends i due) (course.station i).host.sent)

def toRun : Run layout store σ where
  station := course.station
  ticks i due := by
    obtain ⟨t, back⟩ := course.tick_comesBack due
    exact ⟨t, back, course.next i t due back⟩
  delays := course.delays

/-- On any script there is, an engine whose host attends to it comes to the end of the script or to a fault:
each tick until then comes back, a delay is left once its time is over, and the engine carries out no more
instructions than 255 for each byte and one. -/
theorem comes_to_end (script : store.hasScript = true) {e : Engine}
    (started : (course.station 0).engine = e.start store) :
    ∃ n, ((course.station n).engine.state = .finished ∨ (course.station n).engine.state = .failed) ∧
      (∀ k < n, (course.station k).engine.isRunning = true ∧
        ∃ t, Station.tick layout store (course.station k) = .ok () t) ∧
      (∀ k since span, (course.station k).engine.state = .delaying since span →
        elapsed (Surroundings.now (course.station k)) since span = true →
        (course.station (k + 1)).engine.state = .running) ∧
      (List.range n).countP (fun k => (course.station k).engine.state == .running) ≤
        255 * store.scriptLength.toNat + 1 := by
  have there : course.toRun.engine 0 = e.start store := started
  obtain ⟨n, ended, running, few⟩ := Run.reaches_end script there
  refine ⟨n, ended, ?_, ?_, few⟩
  · intro k before
    have due := running k before
    exact ⟨due, course.tick_comesBack due⟩
  · intro k since span delaying passed
    exact course.toRun.state_of_elapsed delaying passed

/-- A run is such a course if the host attends to its ticks. -/
def ofRun (run : Run layout store σ)
    (attends : ∀ i, (run.engine i).isRunning = true →
      Transport.Attends (((run.engine i).actions layout store.scriptByte (run.now i)).countP Action.waits)
        (run.station i).host.host) : Course layout store σ where
  station := run.station
  attends := attends
  next i t due back := by
    obtain ⟨t', back', engine, sent⟩ := run.ticks i due
    rw [back] at back'
    cases back'
    exact ⟨engine, sent⟩
  delays := run.delays

end Course

/-- A script with a delay and a loop inside a loop, which is cut off within a text. -/
def Store.cutScript : Store Memory :=
  .ofScript (Instr.encode (.loop 2 9) ++ Instr.encode (.delay 2) ++ Instr.encode (.loop 3 1) ++
    Opcode.tap :: Instr.encode (.tap 0x04) ++ [Opcode.text, 3, 0x41])

/-- The run on it at a host that is busy for a poll after each report. -/
def Run.cutRun : Run .us .cutScript Bench :=
  .onBench ⟨.start {} .cutScript, ⟨{ busyAfter := 1, budget := 20 }, []⟩⟩ 12 (by decide +kernel)
    (by decide +kernel)

theorem Run.cutRun_attends (i : Nat) (due : (cutRun.engine i).isRunning = true) :
    Transport.Attends (((cutRun.engine i).actions .us Store.cutScript.scriptByte
      (cutRun.now i)).countP Action.waits) (cutRun.station i).host.host := by
  have serves : ∀ k < 12, (cutRun.station k).host.host.busy ≤ 1 ∧
      (cutRun.station k).host.host.busyAfter ≤ 1 ∧
      ((cutRun.engine k).actions .us Store.cutScript.scriptByte (cutRun.now k)).countP Action.waits *
        (1 + 1) ≤ (cutRun.station k).host.host.budget - (cutRun.station k).host.host.polls := by
    decide +kernel
  obtain ⟨busy, after, enough⟩ := serves i (onBench_lt_of_isRunning due)
  exact Bench.attends busy after enough

theorem Course.comes_to_end_cutScript :
    Store.cutScript.hasScript = true ∧ (Run.cutRun.station 0).engine = Engine.start {} .cutScript ∧
    ∃ n, ((Run.cutRun.station n).engine.state = .finished ∨
        (Run.cutRun.station n).engine.state = .failed) ∧
      (∀ k < n, (Run.cutRun.station k).engine.isRunning = true ∧
        ∃ t, Station.tick .us Store.cutScript (Run.cutRun.station k) = .ok () t) ∧
      (∀ k since span, (Run.cutRun.station k).engine.state = .delaying since span →
        elapsed (Surroundings.now (Run.cutRun.station k)) since span = true →
        (Run.cutRun.station (k + 1)).engine.state = .running) ∧
      (List.range n).countP (fun k => (Run.cutRun.station k).engine.state == .running) ≤
        255 * Store.cutScript.scriptLength.toNat + 1 :=
  have script : Store.cutScript.hasScript = true := by decide +kernel
  ⟨script, rfl, (Course.ofRun Run.cutRun Run.cutRun_attends).comes_to_end script rfl⟩

end Autotype
