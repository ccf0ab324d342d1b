import Autotype.Proofs.Trial
import Autotype.Proofs.Underway

/-!
# What is carried out more than once

A loop takes the engine back to the start of its body and no further, so an instruction that is in no body
is behind the engine once it has been carried out. The exception is a loop whose body is empty: the engine
comes to the end of the body as soon as it begins the loop, and the passes that remain are spent on the
instruction that follows, which is in no body.
-/

namespace Autotype

namespace Control

/-- Whether a tick from here carries out the instruction at an offset of a script. -/
def Executes (s : Script) (c : Control) (offset : Nat) : Prop :=
  c.state = .running ∧ c.pc = offset ∧ offset < s.length

/-- Whether a tick from here, outside loops, begins one over the `length` bytes from `start` on. -/
def Begins (s : Script) (c : Control) (count length : UInt8) (start : Nat) : Prop :=
  c.state = .running ∧ c.loop = none ∧ s.decode c.pc = .whole (.loop count length) start

end Control

/-! ## Where a loop can take the engine -/

/-- Whether an offset has been reached for good: the engine is there or behind it, and so is the start of
the loop that it runs. -/
def Beyond (offset pc : Nat) (loop : Option Loop) : Prop :=
  offset ≤ pc ∧ ∀ l, loop = some l → offset ≤ l.start

/-- Whether the engine runs a loop up to some offset, or has reached that offset for good. -/
def Within (stop pc : Nat) (loop : Option Loop) : Prop :=
  Beyond stop pc loop ∨ ∃ l, loop = some l ∧ l.stop = stop

theorem beyond_none {offset pc : Nat} (reached : offset ≤ pc) : Beyond offset pc none := by
  refine ⟨reached, ?_⟩
  rintro l ⟨⟩

theorem beyond_some {offset pc : Nat} {l : Loop} (reached : offset ≤ pc) (start : offset ≤ l.start) :
    Beyond offset pc (some l) := by
  refine ⟨reached, ?_⟩
  rintro l' ⟨⟩
  exact start

namespace Instr

variable (i : Instr) {pc next offset : Nat} {loop : Option Loop}

theorem arrive_beyond (forward : pc ≤ next) (beyond : Beyond offset pc loop) :
    Beyond offset (i.arrive next loop).1 (i.arrive next loop).2 := by
  obtain ⟨reached, starts⟩ := beyond
  have further : offset ≤ next := Nat.le_trans reached forward
  cases loop with
  | none =>
    rcases i.arrive_none next with ⟨same, -⟩ | ⟨count, length, remaining, -, begun, -⟩
    · rw [same]
      exact beyond_none further
    · rw [begun]
      exact beyond_some further further
  | some l =>
    have start := starts l rfl
    obtain ⟨past, ahead, ⟨-, led⟩ | ⟨-, -, led⟩ | ⟨-, -, led⟩⟩ := i.arrive_some next l
    · rw [led]
      exact beyond_some (Nat.le_trans further ahead) start
    · rw [led]
      exact beyond_some start start
    · rw [led]
      exact beyond_none (Nat.le_trans further ahead)

theorem arrive_within (forward : pc ≤ next) (within : Within offset pc loop) :
    Within offset (i.arrive next loop).1 (i.arrive next loop).2 := by
  rcases within with beyond | ⟨l, rfl, stop⟩
  · exact .inl (i.arrive_beyond forward beyond)
  · obtain ⟨past, -, ⟨-, led⟩ | ⟨-, -, led⟩ | ⟨behind, -, led⟩⟩ := i.arrive_some next l
    · rw [led]
      exact .inr ⟨l, rfl, stop⟩
    · rw [led]
      exact .inr ⟨_, rfl, stop⟩
    · rw [led]
      exact .inl (beyond_none (stop ▸ behind))

/-- A loop whose body is empty has one pass behind it as soon as it is begun. -/
theorem arrive_empty {count : UInt8} (many : 1 < count.toNat) (next : Nat) :
    (Instr.loop count 0).arrive next none = (next, some ⟨next, 0, count.toNat - 1⟩) := by
  have passed : ¬next < (⟨next, 0, count.toNat⟩ : Loop).stop := Nat.lt_irrefl next
  exact (if_neg passed).trans (if_pos many)

/-- The next pass of such a loop is spent on the instruction that follows, and leads back to it. -/
theorem arrive_back {start remaining : Nat} (forward : start < next) (again : 1 < remaining) :
    i.arrive next (some ⟨start, 0, remaining⟩) = (start, some ⟨start, 0, remaining - 1⟩) := by
  obtain ⟨past, ahead, ⟨short, -⟩ | ⟨-, -, led⟩ | ⟨-, few, -⟩⟩ :=
    i.arrive_some next ⟨start, 0, remaining⟩
  · have stop : (⟨start, 0, remaining⟩ : Loop).stop = start := rfl
    omega
  · exact led
  · have passes : (⟨start, 0, remaining⟩ : Loop).remaining = remaining := rfl
    omega

end Instr

/-! ## Along a run -/

namespace Run

variable {layout : Layout} {σ μ : Type} [Medium μ] {store : Store μ} [Surroundings σ] [Transport σ]
  {run : Run layout store σ} {e : Engine} {i j n : Nat}

/-- Whether an offset is in the body of none of the loops that are begun in the first ticks of a run. -/
def Outside (run : Run layout store σ) (n offset : Nat) : Prop :=
  ∀ k < n, ∀ count length start,
    (run.control k).Begins store.announced count length start →
      ¬(start ≤ offset ∧ offset < start + length.toNat)

/-- Whether a loop, if there is one, was begun in the first ticks of a run, and does not have all its passes
left if its body is empty. -/
def Begun (run : Run layout store σ) (n : Nat) (loop : Option Loop) : Prop :=
  ∀ l, loop = some l → ∃ k < n, ∃ count length,
    (run.control k).Begins store.announced count length l.start ∧ l.length = length.toNat ∧
      (l.length = 0 → l.remaining < count.toNat)

theorem beyond_of_le (started : run.engine 0 = e.start store)
    (running : ∀ k ≤ j, (run.control k).state.isRunning = true) (later : i ≤ j) {offset : Nat}
    (beyond : Beyond offset (run.control i).pc (run.control i).loop) :
    Beyond offset (run.control j).pc (run.control j).loop :=
  kept started running later (fun _ _ _ instr _ _ forward => instr.arrive_beyond (by omega)) beyond

theorem within_of_le (started : run.engine 0 = e.start store)
    (running : ∀ k ≤ j, (run.control k).state.isRunning = true) (later : i ≤ j) {stop : Nat}
    (within : Within stop (run.control i).pc (run.control i).loop) :
    Within stop (run.control j).pc (run.control j).loop :=
  kept started running later (fun _ _ _ instr _ _ forward => instr.arrive_within (by omega)) within

theorem begun_of_running (started : run.engine 0 = e.start store)
    (running : ∀ k ≤ j, (run.control k).state.isRunning = true) :
    run.Begun j (run.control j).loop := by
  have first : run.Begun j (run.control 0).loop := by
    rintro l active
    rw [show run.control 0 = (e.start store).control from congrArg Engine.control started] at active
    cases active
  refine kept (P := fun _ loop => run.Begun j loop) started running (Nat.zero_le j) ?_ first
  intro k before state instr next read forward known l active
  cases loop : (run.control k).loop with
  | none =>
    rw [loop] at active
    rcases instr.arrive_none next with ⟨same, -⟩ | ⟨count, length, remaining, rfl, begun, counts⟩
    · rw [same] at active
      cases active
    · rw [begun] at active
      cases active
      have fewer : length.toNat = 0 → remaining < count.toNat := by omega
      exact ⟨k, before, count, length, ⟨state, loop, read⟩, rfl, fewer⟩
  | some l' =>
    rw [loop] at active
    obtain ⟨m, earlier, count, length, begins, size, fewer⟩ := known l' loop
    obtain ⟨past, -, ⟨-, led⟩ | ⟨-, -, led⟩ | ⟨-, -, led⟩⟩ := instr.arrive_some next l'
    · rw [led] at active
      cases active
      exact ⟨m, earlier, count, length, begins, size, fewer⟩
    · rw [led] at active
      cases active
      have fewer' : l'.length = 0 → l'.remaining - 1 < count.toNat :=
        fun empty => Nat.lt_of_le_of_lt (Nat.sub_le _ 1) (fewer empty)
      exact ⟨m, earlier, count, length, begins, size, fewer'⟩
    · rw [led] at active
      cases active

/-- Whether no loop with an empty body, in the first ticks of a run, has two or more passes left to be spent
on the instruction behind it. -/
def NoneSpentBehind (run : Run layout store σ) (n : Nat) : Prop :=
  ∀ k < n, ∀ count start, (run.control k).Begins store.announced count 0 start → 3 ≤ count.toNat →
    ∀ instr next, store.announced.decode start = .whole instr next → instr = .finish

/-- Once an instruction in no loop body was carried out, it is behind the engine, and so is the start of the
loop that is run. -/
theorem beyond_of_executes (started : run.engine 0 = e.start store)
    (running : ∀ k < n, (run.control k).state.isRunning = true) (spent : run.NoneSpentBehind n)
    {offset : Nat} (outside : run.Outside n offset) (before : i + 1 < n)
    (executes : (run.control i).Executes store.announced offset) :
    Beyond (offset + 1) (run.control (i + 1)).pc (run.control (i + 1)).loop := by
  have under := underway started (i := i) fun k le => running k (by omega)
  have goes := running (i + 1) before
  rw [control_succ under.running] at goes ⊢
  obtain ⟨state, point, -⟩ := executes
  rcases under.tick_cases goes with
    ⟨-, instr, next, read, more, forward, -, led⟩ | ⟨⟨since, span, delaying⟩, -⟩
  · rw [led]
    show Beyond (offset + 1) (instr.arrive next (run.control i).loop).1
      (instr.arrive next (run.control i).loop).2
    have past : offset + 1 ≤ next := by omega
    cases loop : (run.control i).loop with
    | none => exact instr.arrive_beyond (Nat.le_refl next) (beyond_none past)
    | some l =>
      -- the body of the loop is empty, since the offset would be inside it otherwise
      obtain ⟨start, stop⟩ := under.inside l loop
      obtain ⟨k, earlier, count, length, begins, size, fewer⟩ :=
        begun_of_running started (fun k le => running k (by omega)) l loop
      have out := outside k (by omega) count length l.start begins
      have empty : l.length = 0 := by omega
      have zero : length = 0 := UInt8.toNat_inj.mp (by rw [← size, empty]; rfl)
      have here : l.start = offset := by omega
      have few : count.toNat < 3 := by
        refine Nat.lt_of_not_le fun many => more ?_
        refine spent k (by omega) count l.start (zero ▸ begins) many instr next ?_
        rw [here, ← point]
        exact read
      have last := fewer empty
      have here_stop : l.stop = offset := by rw [Loop.stop, empty, here, Nat.add_zero]
      obtain ⟨past, ahead, ⟨inside, -⟩ | ⟨-, again, -⟩ | ⟨-, -, left⟩⟩ := instr.arrive_some next l
      · omega
      · omega
      · rw [left]
        exact beyond_none (by omega)
  · rw [state] at delaying
    cases delaying

theorem executes_once (started : run.engine 0 = e.start store)
    (running : ∀ k < n, (run.control k).state.isRunning = true) (spent : run.NoneSpentBehind n)
    {offset : Nat} (outside : run.Outside n offset) (before : i < j) (last : j < n)
    (first : (run.control i).Executes store.announced offset) :
    ¬(run.control j).Executes store.announced offset := by
  intro again
  have behind := beyond_of_executes started running spent outside (by omega) first
  have passed := beyond_of_le started (fun k le => running k (by omega)) before behind
  have there := again.2.1
  have reached := passed.1
  omega

/-! ## What an empty body is spent on -/

variable {count : UInt8} {start : Nat}

/-- After a loop with an empty body and more than one pass was begun, the engine is behind it, and its next
passes are still to come. -/
theorem control_begins_empty (started : run.engine 0 = e.start store)
    (running : ∀ k ≤ i, (run.control k).state.isRunning = true)
    (begins : (run.control i).Begins store.announced count 0 start) (many : 1 < count.toNat) :
    run.control (i + 1) =
      { run.control i with
        state := .running
        pc := start
        loop := some ⟨start, 0, count.toNat - 1⟩ } := by
  have under := underway started running
  obtain ⟨state, none, read⟩ := begins
  rw [control_succ under.running, under.tick_whole state read, none, Instr.arrive_empty many start]
  rfl

/-- Ticks without a stop are before the one at which the engine has stopped. -/
theorem lt_of_stopped (stopped : (run.control n).state.isRunning = false) (before : i ≤ n)
    (meanwhile : ∀ k, i ≤ k → k ≤ j → (run.control k).state.isRunning = true) : j < n := by
  refine Nat.lt_of_not_le fun past => ?_
  have goes := meanwhile n before past
  rw [stopped] at goes
  cases goes

/-- The instruction behind a loop with an empty body and more than two passes is carried out again, for the
next of these passes. -/
theorem executes_twice (started : run.engine 0 = e.start store)
    (running : ∀ k < n, (run.control k).state.isRunning = true)
    (stopped : (run.control n).state.isRunning = false) (before : i < n)
    (begins : (run.control i).Begins store.announced count 0 start) (many : 3 ≤ count.toNat)
    {instr : Instr} {next : Nat} (read : store.announced.decode start = .whole instr next)
    (more : instr ≠ .finish) :
    ∃ j, i + 1 < j ∧ j < n ∧ (run.control (i + 1)).Executes store.announced start ∧
      (run.control j).Executes store.announced start := by
  obtain ⟨forward, fits⟩ := Script.advances_of_decode read more
  have inside : start < store.announced.length := by omega
  have behind := control_begins_empty started (fun k le => running k (by omega)) begins (by omega)
  have first : (run.control (i + 1)).Executes store.announced start :=
    ⟨congrArg Control.state behind, congrArg Control.pc behind, inside⟩
  have goes : i + 1 < n := by
    refine lt_of_stopped stopped before fun k after le => ?_
    rw [Nat.le_antisymm le after, first.1]
    rfl
  have under := underway started (i := i + 1) fun k le => running k (by omega)
  have led : run.control (i + 2) =
      { run.control (i + 1) with
        state := instr.stateAfter (run.now (i + 1))
        pc := start
        loop := some ⟨start, 0, count.toNat - 1 - 1⟩ } := by
    have loop : (run.control (i + 1)).loop = some ⟨start, 0, count.toNat - 1⟩ :=
      congrArg Control.loop behind
    rw [control_succ under.running, under.tick_whole first.1 (first.2.1 ▸ read), loop,
      instr.arrive_back (by omega) (by omega)]
  have goes' : i + 2 < n := by
    refine lt_of_stopped stopped goes fun k after le => ?_
    rw [Nat.le_antisymm le after, led]
    exact (Instr.isRunning_stateAfter _).mpr more
  obtain ⟨j, later, resumed, meanwhile⟩ :=
    resumes (underway started (i := i + 2) fun k le => running k (by omega))
  have last : j < n := by
    refine lt_of_stopped stopped (Nat.le_of_lt goes') fun k after le => ?_
    rcases Nat.lt_or_eq_of_le le with early | rfl
    · exact meanwhile k after early
    · rw [resumed]
      rfl
  refine ⟨j, by omega, last, first, ⟨congrArg Control.state resumed, ?_, inside⟩⟩
  rw [resumed, led]

theorem within_of_begins {length : UInt8} (started : run.engine 0 = e.start store)
    (running : ∀ k ≤ i, (run.control k).state.isRunning = true)
    (begins : (run.control i).Begins store.announced count length start) (body : 0 < length.toNat) :
    Within (start + length.toNat) (run.control (i + 1)).pc (run.control (i + 1)).loop := by
  have under := underway started running
  obtain ⟨state, none, read⟩ := begins
  rw [control_succ under.running, under.tick_whole state read, none]
  show Within (start + length.toNat) ((Instr.loop count length).arrive start .none).1
    ((Instr.loop count length).arrive start .none).2
  rcases (Instr.loop count length).arrive_none start with ⟨-, empty⟩ | ⟨_, _, remaining, same, begun, -⟩
  · have size := empty count length rfl
    omega
  · cases same
    rw [begun]
    exact .inr ⟨_, rfl, rfl⟩

/-- What is behind a loop with an empty body is in no loop body. -/
theorem outside_behind_empty (started : run.engine 0 = e.start store)
    (running : ∀ k < n, (run.control k).state.isRunning = true) (before : i < n)
    (begins : (run.control i).Begins store.announced count 0 start) (many : 1 < count.toNat) :
    run.Outside n start := by
  rintro k less count' length start' begins' ⟨reached, short⟩
  obtain ⟨forward, -⟩ := Script.advances_of_decode begins.2.2 Instr.noConfusion
  obtain ⟨forward', -⟩ := Script.advances_of_decode begins'.2.2 Instr.noConfusion
  rcases Nat.lt_trichotomy k i with earlier | rfl | later
  · -- that loop was left before this one was begun
    have within := within_of_le started (fun k le => running k (by omega)) earlier
      (within_of_begins started (fun k le => running k (by omega)) begins' (by omega))
    rcases within with ⟨left, -⟩ | ⟨l, active, -⟩
    · omega
    · rw [begins.2.1] at active
      cases active
  · have same := begins.2.2.symm.trans begins'.2.2
    cases same
    exact Nat.lt_irrefl start (Nat.lt_of_le_of_lt reached short)
  · have begun := control_begins_empty started (fun k le => running k (by omega)) begins many
    have here : Beyond start (run.control (i + 1)).pc (run.control (i + 1)).loop := by
      rw [begun]
      exact beyond_some (Nat.le_refl start) (Nat.le_refl start)
    have there := beyond_of_le started (fun k le => running k (by omega)) later here
    have passed := there.1
    omega

/-! ## What is carried out at most once -/

/-- In a run to its end, the instructions outside loop bodies are carried out at most once each just if no
loop with an empty body has passes to spend on what follows it. -/
theorem once_outside_loops_iff (started : run.engine 0 = e.start store)
    (running : ∀ k < n, (run.engine k).isRunning = true) (stopped : (run.engine n).isRunning = false) :
    (∀ offset, run.Outside n offset → ∀ i < n, ∀ j < n,
      (run.control i).Executes store.announced offset →
      (run.control j).Executes store.announced offset → i = j) ↔
    run.NoneSpentBehind n := by
  have goes : ∀ k < n, (run.control k).state.isRunning = true := running
  constructor
  · intro once k before count start begins many instr next read
    refine Decidable.byContradiction fun more => ?_
    obtain ⟨j, later, last, first, again⟩ :=
      executes_twice started goes stopped before begins many read more
    have outside := outside_behind_empty started goes before begins (by omega)
    have same := once start outside (k + 1) (by omega) j last first again
    omega
  · intro spent offset outside i before j last first again
    rcases Nat.lt_trichotomy i j with earlier | same | later
    · exact absurd again (executes_once started goes spent outside earlier last first)
    · exact same
    · exact absurd first (executes_once started goes spent outside later before again)

end Run

/-- A script in which a tap follows a loop with an empty body. -/
def Store.tapBehindLoop (count : UInt8) : Store Memory :=
  .ofScript (Instr.encode (.loop count 0) ++ Instr.encode (.tap 0x04) ++ Instr.encode .finish)

namespace Run

/-- The run on it if there are two passes: one is over as the loop is begun, and the tap is the other. -/
def tapOnce : Run .us (.tapBehindLoop 2) Bench :=
  .onBench ⟨.start {} (.tapBehindLoop 2), ⟨{}, []⟩⟩ 3 (by decide +kernel) (by decide +kernel)

theorem once_outside_loops_iff_tapOnce :
    tapOnce.engine 0 = Engine.start {} (.tapBehindLoop 2) ∧
    (∀ k < 3, (tapOnce.engine k).isRunning = true) ∧ (tapOnce.engine 3).isRunning = false ∧
    ((∀ offset, tapOnce.Outside 3 offset → ∀ i < 3, ∀ j < 3,
      (tapOnce.control i).Executes (Store.tapBehindLoop 2).announced offset →
      (tapOnce.control j).Executes (Store.tapBehindLoop 2).announced offset → i = j) ↔
    tapOnce.NoneSpentBehind 3) :=
  have started : tapOnce.engine 0 = Engine.start {} (.tapBehindLoop 2) := rfl
  have running : ∀ k < 3, (tapOnce.engine k).isRunning = true := by decide +kernel
  have stopped : (tapOnce.engine 3).isRunning = false := by decide +kernel
  ⟨started, running, stopped, once_outside_loops_iff started running stopped⟩

/-- The run on it if there are three passes, two of which are left for the tap. -/
def tapTwice : Run .us (.tapBehindLoop 3) Bench :=
  .onBench ⟨.start {} (.tapBehindLoop 3), ⟨{}, []⟩⟩ 4 (by decide +kernel) (by decide +kernel)

/-- Although it is in no loop body, the tap is carried out twice then. -/
theorem not_once_behind_empty :
    ¬ ∀ (store : Store Memory) (run : Run .us store Bench) (n : Nat),
      run.engine 0 = Engine.start {} store → (∀ k < n, (run.engine k).isRunning = true) →
      (run.engine n).isRunning = false → ∀ offset, run.Outside n offset →
      ∀ i < n, ∀ j < n, (run.control i).Executes store.announced offset →
      (run.control j).Executes store.announced offset → i = j := by
  intro once
  have started : tapTwice.engine 0 = Engine.start {} (.tapBehindLoop 3) := rfl
  have running : ∀ k < 4, (tapTwice.engine k).isRunning = true := by decide +kernel
  have begins : (tapTwice.control 0).Begins (Store.tapBehindLoop 3).announced 3 0 3 :=
    ⟨by decide +kernel, by decide +kernel, by decide +kernel⟩
  have outside := outside_behind_empty started running (by decide) begins (by decide)
  have first : (tapTwice.control 1).Executes (Store.tapBehindLoop 3).announced 3 :=
    ⟨by decide +kernel, by decide +kernel, by decide +kernel⟩
  have again : (tapTwice.control 2).Executes (Store.tapBehindLoop 3).announced 3 :=
    ⟨by decide +kernel, by decide +kernel, by decide +kernel⟩
  have same := once _ tapTwice 4 started running (by decide +kernel) 3 outside 1 (by decide) 2 (by decide)
    first again
  cases same

end Run

end Autotype
