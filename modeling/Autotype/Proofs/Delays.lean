import Autotype.Proofs.Control
import Autotype.Proofs.Readiness
import Mathlib.Algebra.GroupWithZero.Nat

/-!
# Delays

A delay is a state in which an engine waits: its ticks only look at the clock, and the first one that finds the
time over makes the engine run again, without an instruction yet. The clock counts the true time modulo 2^32, so
it may find a delay over late, when it has come round, but never too early. What an engine does from a delay on
is followed tick by tick (`Ticking`), also with a last tick that does not come back, and with other scripts: as
long as the delay is not over the engine is the same, and all that comes later comes late enough
(`Ticking.delay_ends_on_time`).
-/

namespace Autotype

/-- The engine that has carried out a delay at some true time and is to go on behind it, or back at the start of
a loop whose body ends there. -/
def Engine.waiting (e : Engine) (time : Nat) (ms : UInt16) (next : Nat) : Engine :=
  { e with
    state := .delaying (.ofNat time) ms.toUInt32
    pc := (Loop.closed e.loop next).1
    loop := (Loop.closed e.loop next).2 }

theorem Engine.tick_delay {e : Engine} {layout : Layout} {byteAt : Nat → UInt8} {ms : UInt16} {next : Nat}
    (running : e.state = .running) (read : (e.script byteAt).decode e.pc = .whole (.delay ms) next) (time : Nat) :
    e.tick layout byteAt (.ofNat time) = e.waiting time ms next := by
  simp only [tick, actions, running, stepActions, read, Instr.actions, List.cons_append, List.nil_append,
    acts_cons, acts_nil]
  exact closeLoop_eq _

namespace Station

variable {σ μ : Type} [Surroundings σ] [Transport σ] [Medium μ]

/-- A tick within a delay looks at the clock, and that is all. -/
theorem tick_delaying {s : Station σ} {since span : UInt32} (delaying : s.engine.state = .delaying since span)
    (layout : Layout) (store : Store μ) :
    tick layout store s = .ok ()
      { s with engine :=
          if elapsed (Surroundings.now s) since span then { s.engine with state := .running } else s.engine } := by
  show perform (s.engine.actions layout store.scriptByte (Surroundings.now s)) s = _
  simp only [Engine.actions, delaying]
  split <;> rfl

variable [StatusLight σ]

/-- What a tick shows, and where it comes back, is not earlier than where it began. -/
theorem tick_observed (clock : TrueTime σ) (layout : Layout) (store : Store μ) (s : Station (Observed σ)) :
    (∃ typed, (Routine.worldAfter (tick layout store) s).host.seen = s.host.seen ++ typed ∧
      ∀ m ∈ typed, clock.time s.host.host ≤ clock.time m.2) ∧
    ∀ t, tick layout store s = .ok () t → clock.time s.host.host ≤ clock.time t.host.host := by
  have known : Since s.host.host 0 (Typed s.host.host 0 s.host.seen) s :=
    ⟨⟨[], (List.append_nil _).symm, nofun⟩, fun _ => Nat.le_refl _⟩
  have course := takes_perform (s.engine.actions layout store.scriptByte (Surroundings.now s)) s known
  have same : perform (s.engine.actions layout store.scriptByte (Surroundings.now s)) s =
      tick layout store s := rfl
  rw [same] at course
  unfold Routine.worldAfter
  cases back : tick layout store s with
  | ok u t =>
    rw [back] at course
    obtain ⟨⟨typed, seen, late⟩, passed⟩ := course
    refine ⟨⟨typed, seen, fun m mem => (late m mem).2 clock⟩, fun _ same => ?_⟩
    cases same
    exact passed clock
  | error u t =>
    rw [back] at course
    obtain ⟨typed, seen, late⟩ := course
    exact ⟨⟨typed, seen, fun m mem => (late m mem).2 clock⟩, nofun⟩

end Station

/-! ## Tick after tick -/

/-- Ticks of an engine one after the other, on whatever scripts. Until the next tick only the world of the host
goes on, and the true time with it. -/
structure Ticking (layout : Layout) (μ : Type) [Medium μ] {σ : Type} [Surroundings σ] [Transport σ]
    [StatusLight σ] (clock : TrueTime σ) where
  /-- The station before a tick. -/
  station : Nat → Station (Observed σ)
  /-- The store with the script that a tick reads. -/
  store : Nat → Store μ
  /-- How many ticks come back. -/
  count : Nat
  ticks : ∀ i < count, ∃ t, Station.tick layout (store i) (station i) = .ok () t ∧
    (station (i + 1)).engine = t.engine ∧ (station (i + 1)).host.seen = t.host.seen ∧
    clock.time t.host.host ≤ clock.time (station (i + 1)).host.host

namespace Ticking

variable {layout : Layout} {σ μ : Type} [Medium μ] [Surroundings σ] [Transport σ] [StatusLight σ]
  {clock : TrueTime σ}

def engine (run : Ticking layout μ clock) (i : Nat) : Engine :=
  (run.station i).engine

/-- What was seen of the device before a tick, and in which worlds. -/
def seen (run : Ticking layout μ clock) (i : Nat) : List (Sighting × σ) :=
  (run.station i).host.seen

/-- The true time at a tick. -/
def time (run : Ticking layout μ clock) (i : Nat) : Nat :=
  clock.time (run.station i).host.host

/-- What was seen of the device when a tick came back or was given up. -/
def seenAfter (run : Ticking layout μ clock) (i : Nat) : List (Sighting × σ) :=
  (Routine.worldAfter (Station.tick layout (run.store i)) (run.station i)).host.seen

/-- Whether the clock shows at a tick that so many milliseconds have passed since the first one. -/
def Over (run : Ticking layout μ clock) (span i : Nat) : Prop :=
  span ≤ (run.time i - run.time 0) % 2 ^ 32

instance (run : Ticking layout μ clock) (span i : Nat) : Decidable (run.Over span i) :=
  inferInstanceAs (Decidable (_ ≤ _))

variable (run : Ticking layout μ clock) {i : Nat}

theorem now_station (i : Nat) : Surroundings.now (run.station i) = .ofNat (run.time i) :=
  clock.reads (run.station i).host.host

/-- What a tick shows, it shows no earlier than it began. -/
theorem exists_seenAfter (i : Nat) :
    ∃ typed, run.seenAfter i = run.seen i ++ typed ∧ ∀ m ∈ typed, run.time i ≤ clock.time m.2 :=
  (Station.tick_observed clock layout (run.store i) (run.station i)).1

theorem seen_succ (back : i < run.count) : run.seen (i + 1) = run.seenAfter i := by
  obtain ⟨t, tick, -, seen, -⟩ := run.ticks i back
  rw [seenAfter, Routine.worldAfter, tick]
  exact seen

theorem engine_succ (back : i < run.count) :
    run.engine (i + 1) = (run.engine i).tick layout (run.store i).scriptByte (.ofNat (run.time i)) := by
  obtain ⟨t, tick, engine, -⟩ := run.ticks i back
  rw [← run.now_station]
  exact engine.trans (Station.tick_ok tick).1

theorem time_le_succ (back : i < run.count) : run.time i ≤ run.time (i + 1) := by
  obtain ⟨t, tick, -, -, passed⟩ := run.ticks i back
  exact Nat.le_trans ((Station.tick_observed clock layout (run.store i) (run.station i)).2 t tick) passed

theorem time_le {j : Nat} (le : i ≤ j) (back : j ≤ run.count) : run.time i ≤ run.time j := by
  induction le with
  | refl => exact Nat.le_refl _
  | step le ih => exact Nat.le_trans (ih (by omega)) (run.time_le_succ back)

/-! ## A delay -/

theorem elapsed_iff_over (le : i ≤ run.count) (ms : UInt16) :
    elapsed (.ofNat (run.time i)) (.ofNat (run.time 0)) ms.toUInt32 = true ↔ run.Over ms.toNat i := by
  obtain ⟨passed, later⟩ := Nat.exists_eq_add_of_le (run.time_le (Nat.zero_le i) le)
  rw [Over, later, Nat.add_sub_cancel_left, ← UInt16.toNat_toUInt32]
  exact elapsed_ofNat_iff (run.time 0) passed ms.toUInt32

theorem Over.le {span : Nat} (expired : run.Over span i) (le : i ≤ run.count) :
    run.time 0 + span ≤ run.time i := by
  have start := run.time_le (Nat.zero_le i) le
  have small := Nat.mod_le (run.time i - run.time 0) (2 ^ 32)
  rw [Over] at expired
  omega

/-- What is known before a tick after the one that carried out a delay: the engine is waiting, or the delay is
over and whatever was seen since was late enough. -/
inductive Delayed (ms : UInt16) (next : Nat) (i : Nat) : Prop
  | waits (engine : run.engine i = (run.engine 0).waiting (run.time 0) ms next) (seen : run.seen i = run.seen 0)
    (early : ∀ j, 0 < j → j < i → ¬ run.Over ms.toNat j)
  | ended {j : Nat} (pos : 0 < j) (before : j < i) (expired : run.Over ms.toNat j) {later : List (Sighting × σ)}
    (seen : run.seen i = run.seen 0 ++ later)
    (late : ∀ m ∈ later, run.time 0 + ms.toNat ≤ clock.time m.2)

variable {run} {ms : UInt16} {next : Nat}

theorem tick_waiting (le : i ≤ run.count) (waits : run.engine i = (run.engine 0).waiting (run.time 0) ms next) :
    Station.tick layout (run.store i) (run.station i) = .ok ()
      { run.station i with
        engine :=
          if run.Over ms.toNat i then
            { (run.engine 0).waiting (run.time 0) ms next with state := .running }
          else (run.engine 0).waiting (run.time 0) ms next } := by
  have there : (run.station i).engine = (run.engine 0).waiting (run.time 0) ms next := waits
  have delaying : (run.station i).engine.state = .delaying (.ofNat (run.time 0)) ms.toUInt32 := by
    rw [there]
    rfl
  rw [Station.tick_delaying delaying, now_station, there]
  simp only [run.elapsed_iff_over le]

/-- Whatever a tick shows after a delay, nothing is seen before the delay is over. -/
theorem Delayed.exists_seenAfter (delayed : run.Delayed ms next i) (le : i ≤ run.count) :
    ∃ later, run.seenAfter i = run.seen 0 ++ later ∧
      ∀ m ∈ later, run.time 0 + ms.toNat ≤ clock.time m.2 := by
  cases delayed with
  | waits engine seen early =>
    refine ⟨[], ?_, nofun⟩
    rw [List.append_nil, ← seen, seenAfter, Routine.worldAfter, tick_waiting le engine]
    rfl
  | @ended j pos before expired later seen late =>
    obtain ⟨typed, shown, since⟩ := run.exists_seenAfter i
    have due : run.time 0 + ms.toNat ≤ run.time i :=
      Nat.le_trans (expired.le run (by omega)) (run.time_le (Nat.le_of_lt before) le)
    refine ⟨later ++ typed, by rw [shown, seen, List.append_assoc], fun m mem => ?_⟩
    rcases List.mem_append.mp mem with earlier | last
    · exact late m earlier
    · exact Nat.le_trans due (since m last)

theorem Delayed.succ (delayed : run.Delayed ms next i) (pos : 0 < i) (back : i < run.count) :
    run.Delayed ms next (i + 1) := by
  obtain ⟨later, shown, late⟩ := delayed.exists_seenAfter (Nat.le_of_lt back)
  rw [← run.seen_succ back] at shown
  cases delayed with
  | waits engine seen early =>
    by_cases expired : run.Over ms.toNat i
    · exact .ended pos (Nat.lt_succ_self i) expired shown late
    · have tick := tick_waiting (Nat.le_of_lt back) engine
      obtain ⟨t, tick', engine', seen', -⟩ := run.ticks i back
      rw [tick, if_neg expired] at tick'
      cases tick'
      refine .waits engine' (seen'.trans seen) fun j pos before => ?_
      rcases Nat.lt_or_eq_of_le (Nat.le_of_lt_succ before) with earlier | rfl
      · exact early j pos earlier
      · exact expired
  | ended pos' before expired => exact .ended pos' (Nat.lt_succ_of_lt before) expired shown late

/-- The first tick carries out a delay, and nothing is seen of it. -/
theorem seenAfter_delay (running : (run.engine 0).state = .running)
    (read : ((run.engine 0).script (run.store 0).scriptByte).decode (run.engine 0).pc =
      .whole (.delay ms) next) :
    run.seenAfter 0 = run.seen 0 := by
  have acts : (run.engine 0).actions layout (run.store 0).scriptByte (Surroundings.now (run.station 0)) =
      [.goto next, .enter (.delaying (Surroundings.now (run.station 0)) ms.toUInt32), .closeLoop] := by
    simp only [Engine.actions, running, Engine.stepActions, read, Instr.actions, List.cons_append,
      List.nil_append]
  have performed : Station.tick layout (run.store 0) (run.station 0) = Station.perform _ (run.station 0) :=
    congrArg (Station.perform · (run.station 0)) acts
  rw [seenAfter, Routine.worldAfter, performed]
  rfl

theorem delayed_of_delay (running : (run.engine 0).state = .running)
    (read : ((run.engine 0).script (run.store 0).scriptByte).decode (run.engine 0).pc =
      .whole (.delay ms) next)
    (pos : 0 < i) (le : i ≤ run.count) : run.Delayed ms next i := by
  induction i with
  | zero => cases pos
  | succ i ih =>
    rcases Nat.eq_zero_or_pos i with rfl | later
    · refine .waits ?_ ?_ fun j pos before => ?_
      · rw [run.engine_succ le, Engine.tick_delay running read]
      · rw [run.seen_succ le, seenAfter_delay running read]
      · omega
    · exact (ih later (Nat.le_of_succ_le le)).succ later le

/-- Whatever the script, the host and the clock: an engine that has carried out a delay waits, behind it or at
the start of the loop that it ended, and stays as it is while nothing is seen of it, up to the first tick at
which the clock shows that the time has passed; that tick makes it run again, and that is all. Whenever the
engine is to carry out an instruction later, and whenever something is seen of it later, the time of the delay
has passed in truth. And the first tick after that time, but before the clock has come round, ends the delay. -/
theorem delay_ends_on_time (run : Ticking layout μ clock) (running : (run.engine 0).state = .running)
    (read : ((run.engine 0).script (run.store 0).scriptByte).decode (run.engine 0).pc =
      .whole (.delay ms) next)
    (pos : 0 < i) (le : i ≤ run.count) :
    let waiting := (run.engine 0).waiting (run.time 0) ms next
    let resumed : Engine := { waiting with state := .running }
    ((∀ j, 0 < j → j < i → ¬ run.Over ms.toNat j) →
      run.engine i = waiting ∧ run.seen i = run.seen 0 ∧
      Station.tick layout (run.store i) (run.station i) = .ok ()
        { run.station i with engine := if run.Over ms.toNat i then resumed else waiting }) ∧
    ((run.engine i).state = .running → run.time 0 + ms.toNat ≤ run.time i) ∧
    (∃ later, run.seenAfter i = run.seen 0 ++ later ∧
      ∀ m ∈ later, run.time 0 + ms.toNat ≤ clock.time m.2) ∧
    (run.time 0 + ms.toNat ≤ run.time i ∧ run.time i < run.time 0 + 2 ^ 32 →
      (∀ j, 0 < j → j < i →
        ¬ (run.time 0 + ms.toNat ≤ run.time j ∧ run.time j < run.time 0 + 2 ^ 32)) →
      run.engine i = waiting ∧
      Station.tick layout (run.store i) (run.station i) = .ok () { run.station i with engine := resumed }) := by
  intro waiting resumed
  have delayed := delayed_of_delay running read pos le
  have waits : (∀ j, 0 < j → j < i → ¬ run.Over ms.toNat j) →
      run.engine i = waiting ∧ run.seen i = run.seen 0 := by
    intro early
    cases delayed with
    | waits engine seen _ => exact ⟨engine, seen⟩
    | ended pos' before expired => exact absurd expired (early _ pos' before)
  refine ⟨fun early => ?_, fun due => ?_, delayed.exists_seenAfter le, fun within first => ?_⟩
  · obtain ⟨engine, seen⟩ := waits early
    exact ⟨engine, seen, tick_waiting le engine⟩
  · cases delayed with
    | waits engine _ _ =>
      rw [engine] at due
      cases due
    | ended _ before expired =>
      exact Nat.le_trans (expired.le run (by omega)) (run.time_le (Nat.le_of_lt before) le)
  · have early : ∀ j, 0 < j → j < i → ¬ run.Over ms.toNat j := by
      intro j pos' before expired
      have sooner := run.time_le (Nat.le_of_lt before) le
      exact first j pos' before ⟨expired.le run (by omega), by omega⟩
    have expired : run.Over ms.toNat i := by
      rw [Over, Nat.mod_eq_of_lt (by omega)]
      omega
    have tick := tick_waiting le (waits early).1
    rw [if_pos expired] at tick
    exact ⟨(waits early).1, tick⟩

end Ticking

/-! ## The bench -/

/-- A station on the bench after some ticks, with a poll after each. -/
def Station.afterPolls {μ : Type} [Medium μ] (layout : Layout) (store : Store μ) (s : Station (Observed Bench)) :
    Nat → Station (Observed Bench)
  | 0 => s
  | n + 1 =>
    let t := Routine.worldAfter (tick layout store) (afterPolls layout store s n)
    { t with host := { t.host with host := t.host.host.polled } }

/-- Whether a tick comes back, and a poll after it. -/
def Station.goesOn {μ : Type} [Medium μ] (layout : Layout) (store : Store μ) (s : Station (Observed Bench)) :
    Bool :=
  match tick layout store s with
  | .ok _ t => t.host.host.polls < t.host.host.budget
  | .error _ _ => false

/-- Ticks on the bench from a station on. -/
def Ticking.onBench {layout : Layout} {μ : Type} [Medium μ] (store : Store μ) (s : Station (Observed Bench))
    (count : Nat) (back : ∀ i < count, Station.goesOn layout store (Station.afterPolls layout store s i) = true) :
    Ticking layout μ Bench.trueTime where
  station := Station.afterPolls layout store s
  store _ := store
  count := count
  ticks i before := by
    have on := back i before
    unfold Station.goesOn at on
    cases tick : Station.tick layout store (Station.afterPolls layout store s i) with
    | ok u t =>
      rw [tick] at on
      have there : Station.afterPolls layout store s (i + 1) =
          { t with host := { t.host with host := t.host.host.polled } } := by
        rw [Station.afterPolls, Routine.worldAfter, tick]
      refine ⟨t, rfl, by rw [there], by rw [there], ?_⟩
      rw [there]
      exact Bench.trueTime.poll_le (if_pos (of_decide_eq_true on))
    | error e t =>
      rw [tick] at on
      cases on

/-- A script with a delay at the end of the body of a loop. -/
def Store.delayInLoop : Store Memory :=
  .ofScript (Instr.encode (.loop 2 5) ++ Instr.encode (.tap 0x04) ++ Instr.encode (.delay 500) ++
    Instr.encode .finish)

/-- Ticks from that delay on, in the first pass, while the clock starts over. -/
def Ticking.delayInLoop : Ticking .us Memory Bench.trueTime :=
  .onBench .delayInLoop
    (Station.afterPolls .us .delayInLoop
      ⟨.start {} .delayInLoop, ⟨{ now := 0xFFFFFD0C, msPerPoll := 250 }, []⟩⟩ 2) 4 (by decide +kernel)

/-- The second poll after the delay ends it, at the start of the body. -/
theorem Ticking.delay_ends_on_time_delayInLoop :
    (delayInLoop.engine 0).state = .running ∧
    ((delayInLoop.engine 0).script (delayInLoop.store 0).scriptByte).decode (delayInLoop.engine 0).pc =
      .whole (.delay 500) 8 ∧
    0 < 2 ∧ 2 ≤ delayInLoop.count ∧ delayInLoop.time 0 < 2 ^ 32 ∧
    delayInLoop.time 2 = delayInLoop.time 0 + 500 ∧ 2 ^ 32 ≤ delayInLoop.time 2 ∧
    ((delayInLoop.engine 0).waiting (delayInLoop.time 0) 500 8).pc = 3 ∧
    Station.tick .us Store.delayInLoop (delayInLoop.station 2) = .ok ()
      { delayInLoop.station 2 with
        engine := { (delayInLoop.engine 0).waiting (delayInLoop.time 0) 500 8 with state := .running } } ∧
    ∃ later, delayInLoop.seenAfter 3 = delayInLoop.seen 0 ++ later ∧
      ∀ m ∈ later, delayInLoop.time 0 + 500 ≤ Bench.trueTime.time m.2 := by
  have running : (delayInLoop.engine 0).state = .running := by decide +kernel
  have read : ((delayInLoop.engine 0).script (delayInLoop.store 0).scriptByte).decode (delayInLoop.engine 0).pc =
      .whole (.delay 500) 8 := by decide +kernel
  have times : delayInLoop.time 0 = 4294967040 ∧ delayInLoop.time 1 = 4294967290 ∧
      delayInLoop.time 2 = 4294967540 := by decide +kernel
  obtain ⟨start, first, second⟩ := times
  have span : (500 : UInt16).toNat = 500 := rfl
  have count : delayInLoop.count = 4 := rfl
  have second_le : 2 ≤ delayInLoop.count := by omega
  have third_le : 3 ≤ delayInLoop.count := by omega
  obtain ⟨-, -, -, ends⟩ := delay_ends_on_time delayInLoop running read (by decide) second_le
  obtain ⟨-, -, later, -⟩ := delay_ends_on_time delayInLoop running read (by decide) third_le
  rw [span] at later
  obtain ⟨-, tick⟩ := ends (by rw [start, second, span]; decide) fun j pos before => by
    obtain rfl : j = 1 := by omega
    rw [start, first, span]
    decide
  exact ⟨running, read, by decide, second_le, by omega, by omega, by omega, by decide +kernel, tick, later⟩

end Autotype
