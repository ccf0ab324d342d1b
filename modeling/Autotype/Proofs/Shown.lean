import Autotype.Proofs.Control

/-!
# What a tick shows

What the host is shown in a tick depends on where the engine stands and on what is held; neither the clock
nor the host has a part in it. So the ticks of an engine can be followed through what is held as they can be
followed through the script (`Engine.shows_tick`). Modifiers and keys may be changed several times before a
tick is over, but no change is left without a report of it (`Performance.Faithful`), and an engine that
stops has let go of everything.
-/

namespace Autotype

theorem Report.getLastD_append (rs rs' : List Report) (r : Report) :
    (rs ++ rs').getLastD r = rs'.getLastD (rs.getLastD r) := by
  induction rs generalizing r with
  | nil => rfl
  | cons a rs ih => rw [List.cons_append, List.getLastD_cons, List.getLastD_cons, ih]

namespace Performance

def letGo : Performance := change fun _ => {}

/-- Whether the last report shows what is held in the end. If nothing is reported, the same is held as
before. -/
def Faithful (p : Performance) : Prop :=
  ∀ h, (p h).1.getLastD h.report = (p h).2.report

theorem faithful_rest : rest.Faithful := fun _ => rfl

theorem faithful_change (f : Held → Held) : (change f).Faithful := fun _ => rfl

theorem Faithful.andThen {p q : Performance} (first : p.Faithful) (second : q.Faithful) :
    (p.andThen q).Faithful := by
  intro h
  show ((p h).1 ++ (q (p h).2).1).getLastD h.report = (q (p h).2).2.report
  rw [Report.getLastD_append, first h, second]

theorem faithful_tap (code : UInt8) : (tap code).Faithful :=
  (faithful_change _).andThen (faithful_change _)

theorem faithful_combo (mask code : UInt8) : (combo mask code).Faithful :=
  fun h => (faithful_change _).andThen (faithful_change (Held.hold h.modifiers ∘ Held.release code)) h

theorem faithful_char (layout : Layout) (c : UInt8) : (char layout c).Faithful := by
  intro h
  unfold char
  cases layout c with
  | none => exact faithful_rest h
  | some stroke =>
    by_cases shifted : stroke.shift = true
    · have typed := (faithful_change (Held.press stroke.keycode ∘ Held.hold Modifier.shift)).andThen
        ((faithful_change (Held.release stroke.keycode)).andThen
          (faithful_change (Held.hold h.modifiers)))
      simp only [if_pos shifted]
      exact typed h
    · simp only [if_neg shifted]
      exact faithful_tap stroke.keycode h

theorem faithful_inOrder {ps : List Performance} (each : ∀ p ∈ ps, p.Faithful) :
    (inOrder ps).Faithful := by
  induction ps with
  | nil => exact faithful_rest
  | cons p ps ih =>
    have first := each p List.mem_cons_self
    have later := ih fun q mem => each q (List.mem_cons_of_mem p mem)
    exact first.andThen later

theorem faithful_text (layout : Layout) (chars : Bytes) :
    (inOrder (chars.map (char layout))).Faithful := by
  refine faithful_inOrder fun p mem => ?_
  obtain ⟨c, -, rfl⟩ := List.mem_map.mp mem
  exact faithful_char layout c

end Performance

theorem Instr.faithful_perform (layout : Layout) (i : Instr) : (i.perform layout).Faithful := by
  cases i with
  | delay | loop => exact Performance.faithful_rest
  | tap code => exact Performance.faithful_tap code
  | combo mask code => exact Performance.faithful_combo mask code
  | text chars => exact Performance.faithful_text layout chars
  | _ => exact Performance.faithful_change _

theorem Instr.shows_actions (layout : Layout) (now : UInt32) (i : Instr) (e : Engine) :
    e.reports (i.actions layout now e.modifiers) = (i.perform layout e.held).1 ∧
    (e.acts (i.actions layout now e.modifiers)).held = (i.perform layout e.held).2 := by
  have shown : ∀ {as : List Action} {p : Performance}, e.Shows as p →
      e.reports as = (p e.held).1 ∧ (e.acts as).held = (p e.held).2 :=
    fun shows => ⟨shows.1, shows.2.1⟩
  cases i with
  | finish | delay => exact ⟨rfl, rfl⟩
  | loop count length => exact ⟨rfl, e.held_beginLoop count length⟩
  | keyDown code => exact shown (e.shows_press code)
  | keyUp code => exact shown (e.shows_release code)
  | modifiers mask => exact shown (e.shows_hold mask)
  | tap code => exact shown (e.shows_tap code)
  | combo mask code => exact shown (e.shows_combo mask code)
  | text chars => exact shown (e.shows_text layout chars)

/-! ## Ticks -/

/-- What a tick shows that begins where the engine stands. -/
def Control.perform (layout : Layout) (byteAt : Nat → UInt8) (c : Control) : Performance :=
  match c.state with
  | .running =>
    match Script.decode ⟨c.length, byteAt⟩ c.pc with
    | .whole i _ => i.perform layout
    | .cut typed _ => (Performance.inOrder (typed.map (.char layout))).andThen .letGo
    | .unknown _ => .letGo
  | .delaying _ _ | .idle | .finished | .failed => .rest

theorem Control.faithful_perform (layout : Layout) (byteAt : Nat → UInt8) (c : Control) :
    (c.perform layout byteAt).Faithful := by
  unfold perform
  split
  · split
    · next i _ _ => exact i.faithful_perform layout
    · next typed _ _ => exact (Performance.faithful_text layout typed).andThen (Performance.faithful_change _)
    · exact Performance.faithful_change _
  all_goals exact Performance.faithful_rest

namespace Engine

variable (layout : Layout) (byteAt : Nat → UInt8) (now : UInt32)

theorem shows_failing (e : Engine) (pc : Nat) (fault : Fault) :
    e.reports (.goto pc :: Action.failing fault) = (Performance.letGo e.held).1 ∧
    (e.acts (.goto pc :: Action.failing fault)).held = (Performance.letGo e.held).2 :=
  ⟨rfl, rfl⟩

/-- What a tick shows, and what is held then, is a matter of where the engine stands and of what is held. -/
theorem shows_tick (e : Engine) :
    e.reports (e.actions layout byteAt now) = (e.control.perform layout byteAt e.held).1 ∧
    (e.tick layout byteAt now).held = (e.control.perform layout byteAt e.held).2 := by
  rw [tick, actions, Control.perform, show e.control.state = e.state from rfl]
  cases e.state with
  | running =>
    have read : Script.decode ⟨e.control.length, byteAt⟩ e.control.pc = (e.script byteAt).decode e.pc :=
      rfl
    simp only [stepActions, read]
    cases (e.script byteAt).decode e.pc with
    | whole i next =>
      obtain ⟨reports, held⟩ := i.shows_actions layout now (e.act (.goto next))
      constructor
      · show (e.act (.goto next)).reports (i.actions layout now e.modifiers ++ [.closeLoop]) = _
        rw [reports_append]
        exact (List.append_nil _).trans reports
      · show ((e.act (.goto next)).acts (i.actions layout now e.modifiers ++ [.closeLoop])).held = _
        rw [acts_append, acts_cons, acts_nil, held_closeLoop]
        exact held
    | cut typed offset =>
      obtain ⟨reports, held, -⟩ := e.shows_text layout typed
      obtain ⟨reports', held'⟩ := shows_failing (e.acts (Action.typeText layout e.modifiers typed)) offset
        (.truncated offset)
      rw [held] at reports' held'
      constructor
      · rw [reports_append, reports, reports']
        rfl
      · rw [acts_append, held']
        rfl
    | unknown opcode => exact e.shows_failing (e.pc + 1) (.unknownOpcode opcode e.pc)
  | delaying since span =>
    by_cases ended : elapsed now since span = true
    · simp only [if_pos ended]
      exact ⟨rfl, rfl⟩
    · simp only [if_neg ended]
      exact ⟨rfl, rfl⟩
  | idle | finished | failed => exact ⟨rfl, rfl⟩

/-- The report given last is the last of those handed over. -/
theorem report_acts (e : Engine) (as : List Action) :
    (e.acts as).report = (e.reports as).getLastD e.report := by
  have quiet : ∀ (e : Engine) (count length : UInt8), (e.act (.beginLoop count length)).report = e.report := by
    intro e count length
    simp only [act, beginLoop]
    split <;> rfl
  have quiet' : ∀ e : Engine, (e.act .closeLoop).report = e.report := by
    intro e
    rw [act, closeLoop_eq]
  induction as generalizing e with
  | nil => rfl
  | cons a as ih =>
    rw [acts_cons, ih]
    cases a with
    | send => exact List.getLastD_cons.symm
    | beginLoop count length => exact congrArg _ (quiet e count length)
    | closeLoop => exact congrArg _ (quiet' e)
    | _ => rfl

end Engine

end Autotype
