import Autotype.Proofs.Fetching
import Autotype.Proofs.Underway
import Mathlib.Data.List.Induction

/-!
# How far an offset goes

However broken a script is, an engine that was started on it never gets far past its end. Instructions end
inside the script, and loops begin there; only a loop that is passed over inside another one can lead past the
end, by 255 bytes at most, and then there is nothing to read any more (`Control.Bounded`). So each sum of a
tick is a word, each byte that is read is one of the script, and a fault names the place at which the script
is broken (`Engine.offsets_bounded`).
-/

namespace Autotype

/-! ## One tick -/

namespace Fault

/-- Whether a fault says what is wrong with a script where an engine stopped. -/
def Describes (s : Script) (pc : Nat) : Fault → Prop
  | .unknownOpcode opcode offset =>
    offset < s.length ∧ s.byteAt offset = opcode ∧ 8 < opcode.toNat ∧ pc = offset + 1
  | .truncated offset => pc = offset ∧ s.length ≤ offset

end Fault

namespace Control

/-- Where an engine can stand that was started on a script. -/
structure Bounded (s : Script) (c : Control) : Prop where
  length : c.length = s.length
  pc : c.pc ≤ s.length + 255
  loop : ∀ l, c.loop = some l → l.start ≤ s.length ∧ l.length ≤ 255
  failed : c.state = .failed ↔ c.fault ≠ none
  fault : ∀ f, c.fault = some f → f.Describes s c.pc

/-- Whether a tick passes over a loop inside the loop that is run, and thereby past the end of the script to
some offset. -/
def PassesEnd (s : Script) (c : Control) (offset : Nat) : Prop :=
  c.state = .running ∧ ∃ l count length next, c.loop = some l ∧
    s.decode c.pc = .whole (.loop count length) next ∧ next ≤ s.length ∧
    offset = next + length.toNat ∧ s.length < offset

end Control

namespace Instr

variable (i : Instr) {next length : Nat} {loop : Option Loop}

/-- Whoever is behind an instruction that ends inside a script is at the end of it at most, unless the
instruction is a loop that was passed over inside another one. -/
theorem arrive_le (fits : next ≤ length) (starts : ∀ l, loop = some l → l.start ≤ length) :
    (i.arrive next loop).1 ≤ length ∨
      ∃ l count body, loop = some l ∧ i = .loop count body ∧ (i.arrive next loop).1 = next + body.toNat := by
  have closed : ∀ past, (Loop.closed loop past).1 ≤ length ∨ (Loop.closed loop past).1 = past := by
    intro past
    cases loop with
    | none => exact .inr rfl
    | some l =>
      simp only [Loop.closed]
      split
      · exact .inr rfl
      · split
        · exact .inl (starts l rfl)
        · exact .inr rfl
  have ahead : (Loop.closed loop next).1 ≤ length := (closed next).elim id fun same => by rwa [same]
  cases i with
  | loop count body =>
    cases loop with
    | none =>
      rcases (Instr.loop count body).arrive_none next with ⟨same, -⟩ | ⟨_, _, _, -, begun, -⟩
      · rw [same]
        exact .inl fits
      · rw [begun]
        exact .inl fits
    | some l =>
      exact (closed (next + body.toNat)).imp_right fun same => ⟨l, count, body, rfl, rfl, same⟩
  | _ => exact .inl ahead

/-- The loop behind an instruction is the one before it, or begins there. -/
theorem loop_arrive {l : Loop} (active : (i.arrive next loop).2 = some l) :
    (l.start = next ∧ l.length ≤ 255) ∨ ∃ l', loop = some l' ∧ l.start = l'.start ∧ l.length = l'.length := by
  cases loop with
  | none =>
    rcases i.arrive_none next with ⟨same, -⟩ | ⟨count, body, remaining, -, begun, -⟩
    · rw [same] at active
      cases active
    · rw [begun] at active
      cases active
      exact .inl ⟨rfl, Nat.le_of_lt_succ body.toNat_lt⟩
  | some l' =>
    obtain ⟨past, -, ⟨-, led⟩ | ⟨-, -, led⟩ | ⟨-, -, led⟩⟩ := i.arrive_some next l'
    · rw [led] at active
      cases active
      exact .inr ⟨_, rfl, rfl, rfl⟩
    · rw [led] at active
      cases active
      exact .inr ⟨_, rfl, rfl, rfl⟩
    · rw [led] at active
      cases active

end Instr

namespace Control

variable {s : Script} {c : Control} {now : UInt32}

theorem Bounded.tick (bounded : c.Bounded s) : (c.tick s.byteAt now).Bounded s := by
  cases state : c.state with
  | running =>
    have sound : c.fault = none := by
      by_contra some
      have failed := bounded.failed.mpr some
      rw [state] at failed
      cases failed
    cases read : Script.decode ⟨c.length, s.byteAt⟩ c.pc with
    | whole i next =>
      rw [tick_whole state read]
      rw [bounded.length] at read
      have inside : next ≤ s.length := (Script.bounds_of_whole read).2
      refine ⟨bounded.length, ?_, ?_, ?_, ?_⟩
      · rcases i.arrive_le inside fun l active => (bounded.loop l active).1 with short | ⟨l, count, body, -, -, past⟩
        · exact Nat.le_trans short (Nat.le_add_right _ _)
        · have few := body.toNat_lt
          simp only [past]
          omega
      · intro l active
        rcases i.loop_arrive active with ⟨start, few⟩ | ⟨l', active', start, size⟩
        · exact ⟨start ▸ inside, few⟩
        · rw [start, size]
          exact bounded.loop l' active'
      · refine iff_of_false ?_ (not_not_intro sound)
        cases i <;> exact RunState.noConfusion
      · intro f faulty
        rw [sound] at faulty
        cases faulty
    | cut typed offset =>
      simp only [Control.tick, state, read]
      rw [bounded.length] at read
      have last : offset = max c.pc s.length := Script.offset_of_cut read
      have pc := bounded.pc
      have near : offset ≤ s.length + 255 := by omega
      refine ⟨bounded.length, near, bounded.loop, iff_of_true rfl (Option.some_ne_none _), ?_⟩
      rintro f ⟨⟩
      exact ⟨rfl, by omega⟩
    | unknown opcode =>
      simp only [Control.tick, state, read]
      rw [bounded.length] at read
      obtain ⟨inside, byte, large⟩ := Script.byte_of_unknown read
      have pc := bounded.pc
      have next : c.pc + 1 ≤ s.length + 255 := by
        have here : c.pc < s.length := inside
        omega
      refine ⟨bounded.length, next, bounded.loop, iff_of_true rfl (Option.some_ne_none _), ?_⟩
      rintro f ⟨⟩
      exact ⟨inside, byte, large, rfl⟩
  | delaying since span =>
    simp only [Control.tick, state]
    split
    · refine ⟨bounded.length, bounded.pc, bounded.loop, ?_, bounded.fault⟩
      rw [← bounded.failed, state]
      exact iff_of_false RunState.noConfusion RunState.noConfusion
    · exact bounded
  | idle | finished | failed =>
    simp only [Control.tick, state]
    exact bounded

/-- An engine that is past the end of a script was there before, or comes from a loop that it passed over. -/
theorem Bounded.passed (bounded : c.Bounded s) (past : s.length < (c.tick s.byteAt now).pc) :
    (c.tick s.byteAt now).pc = c.pc ∨ c.PassesEnd s (c.tick s.byteAt now).pc := by
  cases state : c.state with
  | running =>
    cases read : Script.decode ⟨c.length, s.byteAt⟩ c.pc with
    | whole i next =>
      rw [tick_whole state read] at past ⊢
      rw [bounded.length] at read
      have inside : next ≤ s.length := (Script.bounds_of_whole read).2
      rcases i.arrive_le inside fun l active => (bounded.loop l active).1 with
        short | ⟨l, count, body, active, rfl, led⟩
      · exact absurd short (Nat.not_le.mpr past)
      · exact .inr ⟨state, l, count, body, next, active, read, inside, led, past⟩
    | cut typed offset =>
      simp only [Control.tick, state, read] at past ⊢
      rw [bounded.length] at read
      have last : offset = max c.pc s.length := Script.offset_of_cut read
      exact .inl (by omega)
    | unknown opcode =>
      simp only [Control.tick, state, read] at past
      rw [bounded.length] at read
      have inside : c.pc < s.length := (Script.byte_of_unknown read).1
      omega
  | delaying since span =>
    refine .inl ?_
    simp only [Control.tick, state]
    split <;> rfl
  | idle | finished | failed =>
    simp only [Control.tick, state]
    exact .inl trivial

/-! ## Tick after tick -/

/-- Where an engine stands after ticks at these readings of the clock, the first one first. -/
def ticks (byteAt : Nat → UInt8) (c : Control) (readings : List UInt32) : Control :=
  readings.foldl (fun c now => c.tick byteAt now) c

theorem ticks_concat (byteAt : Nat → UInt8) (c : Control) (readings : List UInt32) (now : UInt32) :
    c.ticks byteAt (readings ++ [now]) = (c.ticks byteAt readings).tick byteAt now := by
  rw [ticks, List.foldl_append]
  rfl

theorem Bounded.ticks (bounded : c.Bounded s) (readings : List UInt32) :
    (c.ticks s.byteAt readings).Bounded s :=
  List.foldlRecOn readings _ bounded fun _ bounded _ _ => bounded.tick

/-- Past the end of the script leads only a loop that was passed over, from where an engine began inside it. -/
theorem Bounded.passed_before (bounded : c.Bounded s) (inside : c.pc ≤ s.length) {readings : List UInt32}
    (past : s.length < (c.ticks s.byteAt readings).pc) :
    ∃ before now later, readings = before ++ now :: later ∧
      (c.ticks s.byteAt before).PassesEnd s (c.ticks s.byteAt readings).pc := by
  induction readings using List.reverseRecOn with
  | nil => exact absurd inside (Nat.not_le.mpr past)
  | append_singleton readings now ih =>
    rw [ticks_concat] at past ⊢
    rcases (bounded.ticks readings).passed past with same | passes
    · rw [same] at past ⊢
      obtain ⟨before, then', later, all, passes⟩ := ih past
      exact ⟨before, then', later ++ [now], by rw [all, List.append_assoc, List.cons_append], passes⟩
    · exact ⟨readings, now, [], rfl, passes⟩

end Control

/-- A script that is announced fits into the region. -/
theorem Store.scriptLength_le {μ : Type} (store : Store μ) : store.scriptLength.toNat ≤ maxScript := by
  rw [scriptLength]
  split
  · next valid => exact (store.header.isValid_iff.mp valid).2.2
  · exact Nat.zero_le _

namespace Engine

/-- An engine after ticks at these readings of the clock, the first one first. -/
def ticks (layout : Layout) (byteAt : Nat → UInt8) (e : Engine) (readings : List UInt32) : Engine :=
  readings.foldl (fun e now => e.tick layout byteAt now) e

theorem control_ticks (layout : Layout) (byteAt : Nat → UInt8) (e : Engine) (readings : List UInt32) :
    (e.ticks layout byteAt readings).control = e.control.ticks byteAt readings := by
  induction readings generalizing e with
  | nil => rfl
  | cons now later ih =>
    show ((e.tick layout byteAt now).ticks layout byteAt later).control = _
    rw [ih, control_tick]
    rfl

variable {μ : Type} [Medium μ] (store : Store μ)

theorem bounded_start (e : Engine) : (e.start store).control.Bounded store.announced where
  length := rfl
  pc := Nat.zero_le _
  loop _ active := nomatch active
  failed := by
    refine iff_of_false ?_ (not_not_intro rfl)
    show (if store.hasScript then RunState.running else .idle) ≠ .failed
    split <;> exact RunState.noConfusion
  fault _ faulty := nomatch faulty

/-- Whatever script an engine is started on, and however often and at whatever times it is ticked: it is no
more than 255 bytes past the end of the script, and a loop that it runs begins in the script and ends at a
word, its length behind its start. So the next tick meets no sum that is not a word, and reads nothing but
bytes of the script. An engine that failed has a fault to tell of: a byte of the script that is no opcode, with
the offset just behind it; or that the script ended before the offset, which is where the script ends, unless
some earlier tick passed over a loop inside a loop and led there, past the end. -/
theorem offsets_bounded (layout : Layout) (e : Engine) (readings : List UInt32) :
    let length := store.scriptLength.toNat
    let after := (e.start store).ticks layout store.scriptByte
    let reached := after readings
    length ≤ 503 ∧ reached.pc ≤ length + 255 ∧
    (∀ l, reached.loop = some l → l.start ≤ length ∧ l.length ≤ 255 ∧
      Checked.add Checked.words l.start l.length = .ok l.stop ∧ l.stop = l.start + l.length) ∧
    (∀ now, ∃ read, Checked.tick store now reached.control =
        .ok (read, (reached.tick layout store.scriptByte now).control) ∧
      ∀ a ∈ read, ∃ i < length, a = 8 + i) ∧
    (reached.state = .failed ↔ reached.fault ≠ none) ∧
    (∀ opcode offset, reached.fault = some (.unknownOpcode opcode offset) →
      offset < length ∧ store.scriptByte offset = opcode ∧ 8 < opcode.toNat ∧ reached.pc = offset + 1) ∧
    ∀ offset, reached.fault = some (.truncated offset) →
      reached.pc = offset ∧ length ≤ offset ∧
        (offset ≠ length → ∃ before now later, readings = before ++ now :: later ∧
          (after before).control.PassesEnd store.announced offset) := by
  intro length after reached
  have start := bounded_start store e
  have control : ∀ some, (after some).control = (e.start store).control.ticks store.scriptByte some :=
    control_ticks layout store.scriptByte (e.start store)
  have bounded : reached.control.Bounded store.announced := by
    rw [control]
    exact start.ticks readings
  have short : length ≤ maxScript := store.scriptLength_le
  have room : maxScript + 255 < Checked.words := by decide
  have ends : ∀ l, reached.loop = some l → l.stop < Checked.words := by
    intro l active
    obtain ⟨first, few⟩ := bounded.loop l active
    have inside : l.start ≤ length := first
    show l.start + l.length < Checked.words
    omega
  refine ⟨short, bounded.pc, fun l active => ?_, fun now => ?_, bounded.failed, fun opcode offset faulty => ?_,
    fun offset faulty => ?_⟩
  · obtain ⟨first, few⟩ := bounded.loop l active
    exact ⟨first, few, Checked.add_ok (ends l active), rfl⟩
  · obtain ⟨read, course, cells⟩ :=
      Checked.tick_ok store now (Nat.le_trans (Nat.le_of_eq bounded.length) short) ends
    refine ⟨read, ?_, fun a mem => ?_⟩
    · rw [control_tick]
      exact course
    · obtain ⟨i, inside, place⟩ := cells a mem
      exact ⟨i, Nat.lt_of_lt_of_eq inside bounded.length, place⟩
  · exact bounded.fault _ faulty
  · obtain ⟨here, beyond⟩ := bounded.fault _ faulty
    refine ⟨here, beyond, fun other => ?_⟩
    have there : ((e.start store).control.ticks store.announced.byteAt readings).pc = offset :=
      (congrArg Control.pc (control readings)).symm.trans here
    have past : store.announced.length < offset := Nat.lt_of_le_of_ne beyond (Ne.symm other)
    obtain ⟨before, now, later, all, passes⟩ := start.passed_before (Nat.zero_le _) (there.symm ▸ past)
    rw [there] at passes
    exact ⟨before, now, later, all, (control before).symm ▸ passes⟩

/-- The loop inside is passed over with the ten bytes that it announces, where the script has none. -/
example :
    let store := Store.ofScript (Instr.encode (.loop 2 3) ++ Instr.encode (.loop 5 10))
    (((Engine.start {} store).ticks .us store.scriptByte [0, 0, 0, 0]).fault, store.scriptLength) =
      (some (.truncated 16), 6) := by
  decide +kernel

end Engine

end Autotype
