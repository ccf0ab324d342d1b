import Autotype.Proofs.Committed
import Autotype.Proofs.Program
import Autotype.Proofs.Shown
import Autotype.Proofs.Trial

/-!
# Replaying a program

An engine that is given a program as a string of bytes, and goes through it one instruction at a time
with a single record of the loop it is in, shows what the program means. The pieces of a program are
followed from where they begin to where they end: an instruction, a pass over the body of a loop, all
passes, and a list of statements outside loops.
-/

namespace Autotype

theorem Script.HasAt.left {s : Script} {pc : Nat} {a b : Bytes} (h : s.HasAt pc (a ++ b)) :
    s.HasAt pc a := by
  intro j hj
  have there := h j (by rw [List.length_append]; omega)
  rwa [List.getElem_append_left hj] at there

theorem Script.HasAt.right {s : Script} {pc : Nat} {a b : Bytes} (h : s.HasAt pc (a ++ b)) :
    s.HasAt (pc + a.length) b := by
  intro j hj
  have there := h (a.length + j) (by rw [List.length_append]; omega)
  rw [List.getElem_append_right (Nat.le_add_right _ _), ← Nat.add_assoc] at there
  simpa only [Nat.add_sub_cancel_left] using there

theorem Instr.Plain.fits {i : Instr} (plain : i.Plain) : i.Fits := by
  cases i with
  | finish | loop => exact plain.elim
  | _ => exact plain

/-- Plain instructions lead on, or back if a loop closes behind them. -/
theorem Instr.Plain.arrive {i : Instr} (plain : i.Plain) (next : Nat) (loop : Option Loop) :
    i.arrive next loop = Loop.closed loop next := by
  cases i with
  | finish | loop => exact plain.elim
  | _ => cases loop <;> rfl

/-! ## One tick -/

namespace Engine

variable {byteAt : Nat → UInt8} {length pc : Nat} {loop : Option Loop} {h : Held} {e : Engine}
  {i : Instr}

/-- A tick carries out the instruction that was laid out: it shows what the instruction means, and the engine
stands where that leads. -/
theorem At.tick_laid (layout : Layout) (now : UInt32) (there : e.At length pc loop h)
    (laid : Script.HasAt ⟨length, byteAt⟩ pc i.encode) (fits : i.Fits) :
    (e.tick layout byteAt now).Stands (i.stateAfter now) length
      (i.arrive (pc + i.encode.length) loop).1 (i.arrive (pc + i.encode.length) loop).2
      (i.perform layout h).2 ∧
    e.reports (e.actions layout byteAt now) = (i.perform layout h).1 := by
  obtain ⟨control, held⟩ := there
  have read := Script.decode_of_hasAt laid fits
  have means : e.control.perform layout byteAt = i.perform layout := by
    rw [control]
    simp only [Control.perform, read]
  have led : e.control.tick byteAt now = ⟨i.stateAfter now, (i.arrive (pc + i.encode.length) loop).1, length,
      (i.arrive (pc + i.encode.length) loop).2, none⟩ := by
    rw [control]
    exact Control.tick_whole rfl read
  obtain ⟨shown, held'⟩ := e.shows_tick layout byteAt now
  rw [means, held] at shown held'
  exact ⟨⟨(e.control_tick layout now byteAt).trans led, held'⟩, shown⟩

/-- A tick at a loop, outside loops, enters it. -/
theorem At.tick_enter (layout : Layout) (now : UInt32) (there : e.At length pc none h)
    {count size : UInt8} (laid : Script.HasAt ⟨length, byteAt⟩ pc (Instr.loop count size).encode)
    (size_pos : 0 < size.toNat) :
    (e.tick layout byteAt now).At length (pc + 3) (some ⟨pc + 3, size.toNat, count.toNat⟩) h ∧
    e.reports (e.actions layout byteAt now) = [] := by
  have within : (Instr.loop count size).arrive (pc + 3) none =
      (pc + 3, some ⟨pc + 3, size.toNat, count.toNat⟩) := by
    refine if_pos ?_
    show pc + 3 < pc + 3 + size.toNat
    omega
  have entered := there.tick_laid layout now laid trivial
  rw [show (Instr.loop count size).encode.length = 3 from rfl, within] at entered
  exact entered

/-- A tick at a loop, inside a loop, passes it over. -/
theorem At.tick_skip (layout : Layout) (now : UInt32) {l : Loop}
    (there : e.At length pc (some l) h) {count size : UInt8}
    (laid : Script.HasAt ⟨length, byteAt⟩ pc (Instr.loop count size).encode) :
    (e.tick layout byteAt now).At length (Loop.closed (some l) (pc + 3 + size.toNat)).1
      (Loop.closed (some l) (pc + 3 + size.toNat)).2 h ∧
    e.reports (e.actions layout byteAt now) = [] :=
  there.tick_laid layout now laid trivial

end Engine

/-! ## From one point to the next -/

namespace Loop

theorem closed_of_lt {l : Loop} {pc : Nat} (inside : pc < l.stop) :
    closed (some l) pc = (pc, some l) :=
  if_pos inside

theorem closed_stop_last {l : Loop} (last : l.remaining ≤ 1) :
    closed (some l) l.stop = (l.stop, none) := by
  simp only [closed, Nat.lt_irrefl, if_false]
  exact if_neg (Nat.not_lt.mpr last)

theorem closed_stop_again {l : Loop} (again : 1 < l.remaining) :
    closed (some l) l.stop = (l.start, some { l with remaining := l.remaining - 1 }) := by
  simp only [closed, Nat.lt_irrefl, if_false]
  exact if_pos again

end Loop

namespace Run

variable {layout : Layout} {σ μ : Type} [Medium μ] {store : Store μ} [Surroundings σ] [Transport σ]
  (run : Run layout store σ) {length pc : Nat} {h : Held}

theorem leads_plain {loop : Option Loop} {i : Instr} (plain : i.Plain)
    (laid : Script.HasAt ⟨length, store.scriptByte⟩ pc i.encode) :
    run.Leads (Engine.At length pc loop h) (i.perform layout h).1
      (Engine.At length (Loop.closed loop (pc + i.encode.length)).1
        (Loop.closed loop (pc + i.encode.length)).2 (i.perform layout h).2) := by
  intro k there
  obtain ⟨stands, shown⟩ := there.tick_laid layout (run.now k) laid plain.fits
  rw [← run.engine_succ there.isRunning, plain.arrive] at stands
  have later : run.Reaches (k + 1) [] (Engine.At length
      (Loop.closed loop (pc + i.encode.length)).1 (Loop.closed loop (pc + i.encode.length)).2
      (i.perform layout h).2) := by
    cases i with
    | finish | loop => exact plain.elim
    | delay ms => exact leads_delaying _ _ _ stands
    | _ => exact .here stands
  have all := Reaches.tick there.isRunning shown later
  rwa [List.append_nil] at all

/-- A statement inside a loop. -/
theorem leads_inside {l : Loop} (s : Stmt) (short : s.encode.length < 256)
    (laid : Script.HasAt ⟨length, store.scriptByte⟩ pc s.encode) :
    run.Leads (Engine.At length pc (some l) h) (s.performInside layout h).1
      (Engine.At length (Loop.closed (some l) (pc + s.encode.length)).1
        (Loop.closed (some l) (pc + s.encode.length)).2 (s.performInside layout h).2) := by
  cases s with
  | plain i => exact leads_plain run i.property laid
  | loop count body =>
    simp only [Stmt.encode, List.length_append] at laid short ⊢
    have size : (UInt8.ofNat (Stmt.encodeAll body).length).toNat = (Stmt.encodeAll body).length :=
      Nat.mod_eq_of_lt (by omega)
    refine Leads.tick (fun e there => there.isRunning) ?_
    intro e now there
    have skipped := there.tick_skip layout now laid.left
    have past : pc + ((Instr.loop count (.ofNat (Stmt.encodeAll body).length)).encode.length +
        (Stmt.encodeAll body).length) = pc + 3 + (Stmt.encodeAll body).length :=
      (Nat.add_assoc pc 3 _).symm
    rw [size] at skipped
    rw [past]
    exact skipped

/-- One pass over the body of a loop. -/
theorem leads_body {l : Loop} {ss : List Stmt} (nonempty : ss ≠ [])
    (short : (Stmt.encodeAll ss).length < 256) (stop : pc + (Stmt.encodeAll ss).length = l.stop)
    (laid : Script.HasAt ⟨length, store.scriptByte⟩ pc (Stmt.encodeAll ss)) :
    run.Leads (Engine.At length pc (some l) h)
      (Performance.inOrder (ss.map (Stmt.performInside layout)) h).1
      (Engine.At length (Loop.closed (some l) l.stop).1 (Loop.closed (some l) l.stop).2
        (Performance.inOrder (ss.map (Stmt.performInside layout)) h).2) := by
  induction ss generalizing pc h with
  | nil => exact absurd rfl nonempty
  | cons s ss ih =>
    simp only [Stmt.encodeAll, List.length_append] at laid short stop
    have first := leads_inside run (h := h) (l := l) s (by omega) laid.left
    by_cases last : ss = []
    · subst last
      have ends : pc + s.encode.length = l.stop := stop
      rw [ends] at first
      simpa using first
    · have more := Stmt.encodeAll_pos last
      have within : pc + s.encode.length < l.stop := by omega
      rw [Loop.closed_of_lt within] at first
      exact first.trans (ih last (by omega) (by omega) laid.right)

/-- All passes over the body of a loop, as many as remain but at least one. -/
theorem leads_passes {body : List Stmt} {start size : Nat} (remaining : Nat) (nonempty : body ≠ [])
    (short : (Stmt.encodeAll body).length < 256) (exact_size : (Stmt.encodeAll body).length = size)
    (laid : Script.HasAt ⟨length, store.scriptByte⟩ start (Stmt.encodeAll body)) :
    run.Leads (Engine.At length start (some ⟨start, size, remaining⟩) h)
      (Performance.times (max remaining 1)
        (Performance.inOrder (body.map (Stmt.performInside layout))) h).1
      (Engine.At length (start + size) none (Performance.times (max remaining 1)
        (Performance.inOrder (body.map (Stmt.performInside layout))) h).2) := by
  have pass : ∀ n h, run.Leads (Engine.At length start (some ⟨start, size, n⟩) h) _ _ :=
    fun n h => leads_body run (l := ⟨start, size, n⟩) (h := h) nonempty short
      (congrArg (start + ·) exact_size) laid
  -- by induction on what remains: a pass is the last one, or leads to the start with one less
  induction remaining generalizing h with
  | zero =>
    have last := pass 0 h
    rw [Loop.closed_stop_last (Nat.zero_le 1)] at last
    rw [Nat.max_eq_right (Nat.zero_le 1), Performance.times_one]
    exact last
  | succ n ih =>
    have first := pass (n + 1) h
    by_cases more : n = 0
    · subst more
      rw [Loop.closed_stop_last (Nat.le_refl 1)] at first
      rw [Nat.max_self, Performance.times_one]
      exact first
    · have again : 1 < n + 1 := by omega
      have counts : max (n + 1) 1 = max n 1 + 1 := by omega
      rw [Loop.closed_stop_again again] at first
      rw [counts]
      exact first.trans ih

/-- A loop outside loops. -/
theorem leads_loop {body : List Stmt} (count : UInt8) (fit : (Stmt.loop count body).Fits)
    (laid : Script.HasAt ⟨length, store.scriptByte⟩ pc (Stmt.loop count body).encode) :
    run.Leads (Engine.At length pc none h) ((Stmt.loop count body).perform layout h).1
      (Engine.At length (pc + (Stmt.loop count body).encode.length) none
        ((Stmt.loop count body).perform layout h).2) := by
  obtain ⟨nonempty, short⟩ := fit
  simp only [Stmt.encode, List.length_append] at laid ⊢
  have size : (UInt8.ofNat (Stmt.encodeAll body).length).toNat = (Stmt.encodeAll body).length :=
    Nat.mod_eq_of_lt short
  have enters : run.Leads (Engine.At length pc none h) [] (Engine.At length (pc + 3)
      (some ⟨pc + 3, (Stmt.encodeAll body).length, count.toNat⟩) h) := by
    refine Leads.tick (fun e there => there.isRunning) ?_
    intro e now there
    have entered := there.tick_enter layout now laid.left
      (by rw [size]; exact Stmt.encodeAll_pos nonempty)
    rw [size] at entered
    exact entered
  have passes := leads_passes run (h := h) count.toNat nonempty short rfl laid.right
  have past : pc + ((Instr.loop count (.ofNat (Stmt.encodeAll body).length)).encode.length +
      (Stmt.encodeAll body).length) = pc + 3 + (Stmt.encodeAll body).length :=
    (Nat.add_assoc pc 3 _).symm
  rw [past]
  exact enters.trans passes

/-- Statements outside loops. -/
theorem leads_all {ss : List Stmt} (fits : ∀ s ∈ ss, s.Fits)
    (laid : Script.HasAt ⟨length, store.scriptByte⟩ pc (Stmt.encodeAll ss)) :
    run.Leads (Engine.At length pc none h)
      (Performance.inOrder (ss.map (Stmt.perform layout)) h).1
      (Engine.At length (pc + (Stmt.encodeAll ss).length) none
        (Performance.inOrder (ss.map (Stmt.perform layout)) h).2) := by
  induction ss generalizing pc h with
  | nil => exact Leads.refl _
  | cons s ss ih =>
    simp only [Stmt.encodeAll, List.length_append] at laid ⊢
    have first : run.Leads (Engine.At length pc none h) (s.perform layout h).1
        (Engine.At length (pc + s.encode.length) none (s.perform layout h).2) := by
      have fit := fits s List.mem_cons_self
      cases s with
      | plain i => exact leads_plain run i.property laid.left
      | loop count body => exact leads_loop run count fit laid.left
    have later := ih (h := (s.perform layout h).2) (fun t mem => fits t (List.mem_cons_of_mem s mem))
      laid.right
    rw [← Nat.add_assoc]
    exact first.trans later

theorem leads_finish (laid : Script.HasAt ⟨length, store.scriptByte⟩ pc Instr.finish.encode) :
    run.Leads (Engine.At length pc none h) (Instr.finish.perform layout h).1
      (Engine.Stands .finished length (pc + 1) none {}) :=
  Leads.tick (fun _ there => there.isRunning) fun _ now there => there.tick_laid layout now laid trivial

end Run

/-! ## From start to end -/

/-- An engine that is started is at the beginning of the script with nothing held, whatever it was doing
before. -/
theorem Engine.start_at {μ : Type} [Medium μ] {store : Store μ} {bytes : Bytes}
    (holds : store.Holds bytes) (e : Engine) : (e.start store).At bytes.length 0 none {} := by
  refine ⟨?_, rfl⟩
  show (⟨if store.hasScript then .running else .idle, 0, store.scriptLength.toNat, none, none⟩ :
    Control) = _
  rw [if_pos holds.valid, holds.scriptLength]

/-- A run on a program that has been committed comes to an end without a fault, having handed over just
the reports that the program stands for. -/
theorem Run.replays_program {layout : Layout} {σ μ : Type} [Medium μ] {store : Store μ}
    [Surroundings σ] [Transport σ] (p : Program) (holds : store.Holds p.bytes) (e : Engine)
    (run : Run layout store σ) (started : run.engine 0 = e.start store) :
    ∃ n, (∀ k < n, (run.engine k).isRunning = true) ∧ (run.engine n).state = .finished ∧
      (run.engine n).fault = none ∧ run.sent n = run.sent 0 ++ p.reports layout := by
  have laid := holds.hasAt
  have there : (run.engine 0).At p.bytes.length 0 none {} := by
    rw [started]
    exact Engine.start_at holds e
  have body := leads_all run (h := {}) p.fits laid.left
  obtain ⟨n, -, last, shown, running⟩ := (body.trans (leads_finish run laid.right)) 0 there
  refine ⟨n, ?_, ?_, ?_, shown⟩
  · intro k before
    exact running k (Nat.zero_le k) before
  · exact congrArg Control.state last.1
  · exact congrArg Control.fault last.1

/-! ## A run on the bench -/

/-- A program with a loop that is run twice, and passes over the loop inside it. -/
def Program.twice : Program where
  stmts := [
    .loop 2 [.plain ⟨.tap 0x04, trivial⟩, .loop 3 [.plain ⟨.tap 0x05, trivial⟩]],
    .plain ⟨.delay 2, trivial⟩,
    .plain ⟨.text [0x41], Nat.one_lt_succ_succ _⟩]
  fits := by decide
  room := by decide

def Program.twiceStore : Store Memory :=
  .commit (.writeBlock (.mount {}) scriptStart Program.twice.bytes)
    { version := Header.currentVersion
      length := .ofNat Program.twice.bytes.length
      checksum := Checksum.ofBytes Program.twice.bytes }

/-- The stations of the run on that program, from a clock that is about to wrap around. -/
def Program.twiceStation : Nat → Station (Recorded Bench) :=
  Station.afterTicks .us twiceStore
    ⟨.start {} twiceStore, ⟨{ now := 0xFFFFFFFA, budget := 1 }, []⟩⟩

theorem Program.twice_comesBack :
    ∀ i < 10, Station.comesBack .us twiceStore (twiceStation i) = true := by
  decide +kernel

def Run.twice : Run .us Program.twiceStore Bench :=
  .ofLast Program.twiceStation 10
    (fun i before => Station.afterTicks_succ (Program.twice_comesBack i before)) (by decide +kernel)

theorem Run.replays_twice :
    Program.twiceStore.Holds Program.twice.bytes ∧
    Run.twice.engine 0 = Engine.start {} Program.twiceStore ∧
    ∃ n, (∀ k < n, (Run.twice.engine k).isRunning = true) ∧ (Run.twice.engine n).state = .finished ∧
      (Run.twice.engine n).fault = none ∧
      Run.twice.sent n = Run.twice.sent 0 ++ Program.twice.reports .us :=
  have holds : Program.twiceStore.Holds Program.twice.bytes :=
    ⟨by decide, by decide, by decide +kernel⟩
  ⟨holds, rfl, Run.replays_program Program.twice holds {} Run.twice rfl⟩

-- two passes of one tap, a shifted character and the last report; the loop inside shows nothing
example : (Program.twice.reports .us).length = 2 * 2 + 3 + 1 := by decide +kernel

end Autotype
