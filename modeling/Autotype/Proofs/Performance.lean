import Autotype.Proofs.Held

/-!
# What typing shows

A performance is what a keyboard shows: from what is held it gives the reports, one for each change, and
what is held afterwards. The performance of an instruction says what the instruction means, without an
engine; `Engine.Shows` says of actions that they amount to a performance and leave alone where the engine
stands.
-/

namespace Autotype

/-- The reports that come from what is held, and what is held then. -/
abbrev Performance := Held → List Report × Held

namespace Performance

def rest : Performance := fun h => ([], h)

/-- One change, and a report of it. -/
def change (f : Held → Held) : Performance := fun h => ([(f h).report], f h)

def andThen (p q : Performance) : Performance := fun h =>
  ((p h).1 ++ (q (p h).2).1, (q (p h).2).2)

def times : Nat → Performance → Performance
  | 0, _ => rest
  | n + 1, p => p.andThen (times n p)

def inOrder (ps : List Performance) : Performance :=
  ps.foldr andThen rest

/-- A key goes down and comes up. -/
def tap (code : UInt8) : Performance :=
  (change (Held.press code)).andThen (change (Held.release code))

/-- A key goes down and comes up while exactly these modifiers are held; then those held before are back.
The first report shows the modifiers and the key together. -/
def combo (mask code : UInt8) : Performance := fun h =>
  (change (Held.press code ∘ Held.hold mask)).andThen
    (change (Held.hold h.modifiers ∘ Held.release code)) h

/-- A character is typed. With shift the modifiers held before come back one report after the key came
up. -/
def char (layout : Layout) (c : UInt8) : Performance := fun h =>
  match layout c with
  | none => rest h
  | some stroke =>
    if stroke.shift then
      ((change (Held.press stroke.keycode ∘ Held.hold Modifier.shift)).andThen
        ((change (Held.release stroke.keycode)).andThen (change (Held.hold h.modifiers)))) h
    else tap stroke.keycode h

@[simp] theorem inOrder_nil : inOrder [] = rest := rfl

@[simp] theorem inOrder_cons (p : Performance) (ps : List Performance) :
    inOrder (p :: ps) = p.andThen (inOrder ps) := rfl

@[simp] theorem andThen_rest (p : Performance) : p.andThen rest = p := by
  funext h
  simp [andThen, rest]

theorem times_one (p : Performance) : times 1 p = p :=
  andThen_rest p

end Performance

/-- What an instruction shows. A loop shows nothing by itself. -/
def Instr.perform (layout : Layout) : Instr → Performance
  | .finish => .change fun _ => {}
  | .delay _ => .rest
  | .keyDown code => .change (Held.press code)
  | .keyUp code => .change (Held.release code)
  | .modifiers mask => .change (Held.hold mask)
  | .tap code => .tap code
  | .loop _ _ => .rest
  | .combo mask code => .combo mask code
  | .text chars => .inOrder (chars.map (.char layout))

namespace Engine

variable (layout : Layout)

/-- Whether actions show a performance and leave alone where the engine stands. -/
def Shows (e : Engine) (actions : List Action) (p : Performance) : Prop :=
  e.reports actions = (p e.held).1 ∧ (e.acts actions).held = (p e.held).2 ∧
    (e.acts actions).control = e.control

theorem Shows.append {e : Engine} {as bs : List Action} {p q : Performance} (first : e.Shows as p)
    (second : (e.acts as).Shows bs q) : e.Shows (as ++ bs) (p.andThen q) := by
  obtain ⟨hr, hh, hc⟩ := first
  obtain ⟨hr', hh', hc'⟩ := second
  rw [hh] at hr' hh'
  refine ⟨?_, ?_, ?_⟩
  · rw [reports_append, hr, hr']
    rfl
  · rw [acts_append, hh']
    rfl
  · rw [acts_append, hc', hc]

/-- Actions that hand nothing over, and then a report. -/
theorem shows_change {e : Engine} (as : List Action) {f : Held → Held} (quiet : e.reports as = [])
    (held : (e.acts as).held = f e.held) (still : (e.acts as).control = e.control) :
    e.Shows (as ++ [.send]) (.change f) := by
  refine ⟨?_, ?_, ?_⟩
  · rw [reports_append, quiet]
    show [(e.acts as).held.report] = _
    rw [held]
    rfl
  · rw [acts_append, acts_cons, acts_nil, held_send, held]
    rfl
  · rw [acts_append, acts_cons, acts_nil, control_send, still]

theorem shows_poll (e : Engine) : e.Shows [.poll] .rest := ⟨rfl, rfl, rfl⟩

theorem shows_press (e : Engine) (code : UInt8) :
    e.Shows [.press code, .send] (.change (Held.press code)) :=
  shows_change [.press code] rfl rfl rfl

theorem shows_release (e : Engine) (code : UInt8) :
    e.Shows [.release code, .send] (.change (Held.release code)) :=
  shows_change [.release code] rfl rfl rfl

theorem shows_hold (e : Engine) (mask : UInt8) :
    e.Shows [.hold mask, .send] (.change (Held.hold mask)) :=
  shows_change [.hold mask] rfl rfl rfl

theorem shows_hold_press (e : Engine) (mask code : UInt8) :
    e.Shows [.hold mask, .press code, .send] (.change (Held.press code ∘ Held.hold mask)) :=
  shows_change [.hold mask, .press code] rfl rfl rfl

theorem shows_tap (e : Engine) (code : UInt8) : e.Shows (Action.tap code) (.tap code) :=
  (shows_press e code).append (shows_release _ code)

theorem shows_combo (e : Engine) (mask code : UInt8) :
    e.Shows [.hold mask, .press code, .send, .release code, .hold e.modifiers, .send]
      (.combo mask code) := by
  have up : (e.acts [.hold mask, .press code, .send]).Shows [.release code, .hold e.modifiers, .send]
      (.change (Held.hold e.modifiers ∘ Held.release code)) :=
    shows_change [.release code, .hold e.modifiers] rfl rfl rfl
  exact (shows_hold_press e mask code).append up

/-- Typing a character shows it, given the modifiers that it has to put back. -/
theorem shows_char (e : Engine) (c : UInt8) :
    e.Shows (Action.typeChar layout e.modifiers c) (.char layout c) := by
  cases known : layout c with
  | none =>
    simp only [Shows, Action.typeChar, Performance.char, known]
    exact shows_poll e
  | some stroke =>
    by_cases shifted : stroke.shift = true
    · have typed := ((shows_hold_press e Modifier.shift stroke.keycode).append
        ((shows_release _ stroke.keycode).append (shows_hold _ e.modifiers))).append (shows_poll _)
      rw [Performance.andThen_rest] at typed
      simp only [Shows, Action.typeChar, Performance.char, known, shifted, if_true,
        KeyStroke.modifiers]
      exact typed
    · have typed := (shows_tap e stroke.keycode).append (shows_poll _)
      rw [Performance.andThen_rest] at typed
      simp only [Shows, Action.typeChar, Performance.char, known, shifted, Bool.false_eq_true,
        if_false]
      exact typed

/-- After a character the same modifiers are held as before it. -/
theorem modifiers_char (h : Held) (c : UInt8) :
    (Performance.char layout c h).2.modifiers = h.modifiers := by
  unfold Performance.char
  split
  · rfl
  · split <;> rfl

theorem shows_text (e : Engine) (chars : Bytes) :
    e.Shows (Action.typeText layout e.modifiers chars) (.inOrder (chars.map (.char layout))) := by
  induction chars generalizing e with
  | nil => exact ⟨rfl, rfl, rfl⟩
  | cons c cs ih =>
    have first := shows_char layout e c
    have kept : (e.acts (Action.typeChar layout e.modifiers c)).modifiers = e.modifiers := by
      have same := modifiers_char layout e.held c
      rw [← first.2.1] at same
      exact same
    have later := ih (e.acts (Action.typeChar layout e.modifiers c))
    rw [kept] at later
    exact first.append later

end Engine

/-- Whether an instruction only types or waits: it neither ends the script nor begins a loop, and it can
be laid out. -/
def Instr.Plain : Instr → Prop
  | .finish | .loop _ _ => False
  | i => i.Fits

/-- The state in which an instruction leaves an engine that is running. -/
def Instr.stateAfter (now : UInt32) : Instr → RunState
  | .finish => .finished
  | .delay ms => .delaying now ms.toUInt32
  | _ => .running

end Autotype
