import Autotype.Proofs.Performance

/-!
# Where a tick leads

Where an engine stands after a tick depends on where it stood, on the script and on the reading of the
clock; the layout, the host and what is held have no part in it. So the ticks of an engine can be followed
through the script alone (`Engine.control_tick`). An instruction leads forward, past itself at least, and
then a loop may close, which is the only way back: `Instr.arrive_none` and `Instr.arrive_some` list all
that can happen outside loops and inside one.
-/

namespace Autotype

/-- The offset and the loop to which an instruction leads, before a loop may close. Inside a loop another
one is passed over with all its body. -/
def Instr.leadsTo (i : Instr) (next : Nat) (loop : Option Loop) : Nat × Option Loop :=
  match i, loop with
  | .loop count length, none => (next, some ⟨next, length.toNat, count.toNat⟩)
  | .loop _ length, some l => (next + length.toNat, some l)
  | _, loop => (next, loop)

/-- The offset and the loop after an instruction. -/
def Instr.arrive (i : Instr) (next : Nat) (loop : Option Loop) : Nat × Option Loop :=
  Loop.closed (i.leadsTo next loop).2 (i.leadsTo next loop).1

/-- Whether an offset is inside a loop. An empty body counts as one that has room for one offset, where the
engine stays until the loop is left. -/
def Loop.Around (l : Loop) (pc : Nat) : Prop :=
  l.start ≤ pc ∧ pc < l.start + max l.length 1

/-- Where an engine stands after a tick. -/
def Control.tick (byteAt : Nat → UInt8) (now : UInt32) (c : Control) : Control :=
  match c.state with
  | .running =>
    match Script.decode ⟨c.length, byteAt⟩ c.pc with
    | .whole i next =>
      { c with
        state := i.stateAfter now
        pc := (i.arrive next c.loop).1
        loop := (i.arrive next c.loop).2 }
    | .cut _ offset => { c with state := .failed, pc := offset, fault := some (.truncated offset) }
    | .unknown opcode =>
      { c with state := .failed, pc := c.pc + 1, fault := some (.unknownOpcode opcode c.pc) }
  | .delaying since span => if elapsed now since span then { c with state := .running } else c
  | .idle | .finished | .failed => c

namespace Engine

variable (layout : Layout) (now : UInt32)

theorem control_instr {e : Engine} (i : Instr) (running : e.state = .running) :
    (e.acts (i.actions layout now e.modifiers)).control =
      { e.control with
        state := i.stateAfter now
        pc := (i.leadsTo e.pc e.loop).1
        loop := (i.leadsTo e.pc e.loop).2 } := by
  have unchanged : e.control = { e.control with state := .running } := by
    rw [← running]
    rfl
  cases i with
  | loop count length =>
    show (e.act (.beginLoop count length)).control = _
    cases active : e.loop with
    | none =>
      rw [control_beginLoop_none active, unchanged]
      rfl
    | some l =>
      rw [control_beginLoop_some active, unchanged]
      show _ = (⟨.running, e.pc + length.toNat, e.length, some l, e.fault⟩ : Control)
      rw [← active]
      rfl
  | text chars => exact (e.shows_text layout chars).2.2.trans unchanged
  | finish | delay ms => rfl
  | _ => exact unchanged

/-- Ticks can be followed without an engine. -/
theorem control_tick (byteAt : Nat → UInt8) (e : Engine) :
    (e.tick layout byteAt now).control = e.control.tick byteAt now := by
  rw [tick, actions, Control.tick, show e.control.state = e.state from rfl]
  cases state : e.state with
  | running =>
    have read : Script.decode ⟨e.control.length, byteAt⟩ e.control.pc = (e.script byteAt).decode e.pc :=
      rfl
    simp only [stepActions, read]
    cases (e.script byteAt).decode e.pc with
    | whole i next =>
      have goes : ((e.act (.goto next)).acts (i.actions layout now e.modifiers)).control =
          { e.control with
            state := i.stateAfter now
            pc := (i.leadsTo next e.loop).1
            loop := (i.leadsTo next e.loop).2 } := control_instr layout now i state
      simp only [List.cons_append, acts_cons, acts_append, acts_nil]
      rw [control_closeLoop, goes]
      rfl
    | cut typed offset =>
      have typing := (e.shows_text layout typed).2.2
      simp only [acts_append, acts_cons]
      show ({ ((e.acts (Action.typeText layout e.modifiers typed)).control) with
        state := .failed, pc := offset, fault := some (.truncated offset) } : Control) = _
      rw [typing]
    | unknown opcode => rfl
  | delaying since span =>
    by_cases ended : elapsed now since span = true
    · simp only [if_pos ended]
      rfl
    · simp only [if_neg ended]
      rfl
  | idle | finished | failed => rfl

end Engine

/-! ## Forward, and back to the start of a loop -/

namespace Instr

/-- Outside loops an instruction leads just past itself. A loop whose body is empty is passed once as it is
begun. -/
theorem arrive_none (i : Instr) (next : Nat) :
    i.arrive next none = (next, none) ∧ (∀ count length, i = .loop count length → length.toNat = 0) ∨
    ∃ count length remaining, i = .loop count length ∧
      i.arrive next none = (next, some ⟨next, length.toNat, remaining⟩) ∧
      (0 < length.toNat ∧ remaining = count.toNat ∨
        length.toNat = 0 ∧ remaining + 1 = count.toNat ∧ 0 < remaining) := by
  cases i with
  | loop count length =>
    by_cases empty : length.toNat = 0
    · have passed : ¬next < (⟨next, length.toNat, count.toNat⟩ : Loop).stop := by
        show ¬next < next + length.toNat
        omega
      by_cases again : 1 < count.toNat
      · refine .inr ⟨count, length, count.toNat - 1, rfl, ?_, .inr ⟨empty, by omega, by omega⟩⟩
        simp only [arrive, leadsTo, Loop.closed, if_neg passed, if_pos again]
      · refine .inl ⟨?_, ?_⟩
        · simp only [arrive, leadsTo, Loop.closed, if_neg passed, if_neg again]
        · rintro _ _ ⟨⟩
          exact empty
    · have inside : next < (⟨next, length.toNat, count.toNat⟩ : Loop).stop := by
        show next < next + length.toNat
        omega
      exact .inr ⟨count, length, count.toNat, rfl, if_pos inside, .inl ⟨by omega, rfl⟩⟩
  | _ => exact .inl ⟨rfl, fun _ _ loop => Instr.noConfusion loop⟩

/-- Inside a loop an instruction leads to some offset past itself. If that is not in the body any more, the
loop starts over or is left. -/
theorem arrive_some (i : Instr) (next : Nat) (l : Loop) :
    ∃ past, next ≤ past ∧
      (past < l.stop ∧ i.arrive next (some l) = (past, some l) ∨
        l.stop ≤ past ∧ 1 < l.remaining ∧
          i.arrive next (some l) = (l.start, some { l with remaining := l.remaining - 1 }) ∨
        l.stop ≤ past ∧ l.remaining ≤ 1 ∧ i.arrive next (some l) = (past, none)) := by
  have leads : ∃ past, next ≤ past ∧ i.leadsTo next (some l) = (past, some l) := by
    cases i with
    | loop count length => exact ⟨next + length.toNat, Nat.le_add_right _ _, rfl⟩
    | _ => exact ⟨next, Nat.le_refl _, rfl⟩
  obtain ⟨past, forward, led⟩ := leads
  refine ⟨past, forward, ?_⟩
  simp only [arrive, led, Loop.closed]
  by_cases inside : past < l.stop
  · exact .inl ⟨inside, if_pos inside⟩
  · rw [if_neg inside]
    by_cases again : 1 < l.remaining
    · exact .inr (.inl ⟨Nat.le_of_not_lt inside, again, if_pos again⟩)
    · exact .inr (.inr ⟨Nat.le_of_not_lt inside, Nat.le_of_not_lt again, if_neg again⟩)

/-- Whoever is inside the loop that is run stays inside it, or inside the next one. -/
theorem arrive_around (i : Instr) {pc next : Nat} {loop : Option Loop} (forward : pc ≤ next)
    (inside : ∀ l, loop = some l → l.Around pc) {l : Loop} (active : (i.arrive next loop).2 = some l) :
    l.Around (i.arrive next loop).1 := by
  have around_start : ∀ l : Loop, l.Around l.start := by
    intro l
    exact ⟨Nat.le_refl _, by omega⟩
  cases loop with
  | none =>
    rcases i.arrive_none next with ⟨same, -⟩ | ⟨count, length, remaining, -, begun, -⟩
    · rw [same] at active
      cases active
    · rw [begun] at active ⊢
      cases active
      exact around_start _
  | some l' =>
    obtain ⟨start, -⟩ := inside l' rfl
    obtain ⟨past, further, ⟨within, led⟩ | ⟨-, -, led⟩ | ⟨-, -, led⟩⟩ := i.arrive_some next l'
    · rw [led] at active ⊢
      cases active
      have stop : l.stop = l.start + l.length := rfl
      exact ⟨Nat.le_trans start (Nat.le_trans forward further), by omega⟩
    · rw [led] at active ⊢
      cases active
      exact around_start l'
    · rw [led] at active
      cases active

theorem isRunning_stateAfter {i : Instr} (now : UInt32) :
    (i.stateAfter now).isRunning = true ↔ i ≠ .finish := by
  cases i <;> simp [stateAfter, RunState.isRunning]

theorem two_le_length_encode {i : Instr} (more : i ≠ .finish) : 2 ≤ i.encode.length := by
  cases i with
  | finish => exact absurd rfl more
  | text chars => exact Nat.le_add_left 2 chars.length
  | delay | loop | combo => exact Nat.le_succ 2
  | _ => exact Nat.le_refl 2

end Instr

/-- An instruction that does not end the script takes at least two bytes of it. -/
theorem Script.advances_of_decode {s : Script} {pc next : Nat} {i : Instr} (read : s.decode pc = .whole i next)
    (more : i ≠ .finish) : pc + 2 ≤ next ∧ next ≤ s.length := by
  obtain ⟨laid, -, past⟩ := hasAt_of_decode read
  have long := Instr.two_le_length_encode more
  have start : pc < s.length := (laid 0 (by omega)).1
  have stop := laid.le (Nat.le_of_lt start)
  exact ⟨by omega, by rw [past]; exact stop⟩

namespace Control

variable {byteAt : Nat → UInt8} {now : UInt32} {c : Control}

theorem tick_whole {i : Instr} {next : Nat} (running : c.state = .running)
    (read : Script.decode ⟨c.length, byteAt⟩ c.pc = .whole i next) :
    c.tick byteAt now =
      { c with
        state := i.stateAfter now
        pc := (i.arrive next c.loop).1
        loop := (i.arrive next c.loop).2 } := by
  simp only [tick, running, read]

/-- A tick after which there is still work to do carried out a whole instruction, and not the last one. -/
theorem tick_goes_on (running : c.state = .running)
    (goes : (c.tick byteAt now).state.isRunning = true) :
    ∃ i next, Script.decode ⟨c.length, byteAt⟩ c.pc = .whole i next ∧ i ≠ .finish := by
  cases read : Script.decode ⟨c.length, byteAt⟩ c.pc with
  | whole i next =>
    rw [tick_whole running read] at goes
    exact ⟨i, next, rfl, (Instr.isRunning_stateAfter now).mp goes⟩
  | cut typed offset =>
    simp only [tick, running, read] at goes
    cases goes
  | unknown opcode =>
    simp only [tick, running, read] at goes
    cases goes

end Control

end Autotype
