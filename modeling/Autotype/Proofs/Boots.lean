import Autotype.Bench.Chip
import Mathlib.Data.List.Induction

/-!
# What decides a start

Over a life of many starts a chip is selected a mode for, made to restart, fired at by its watchdog and
switched off and on. On a chip that forgets its causes when they are wiped, the mode of a start follows from
what happened last (`BenchChip.Lived`), and the watchdog gives each start as a keyboard that it causes once.
-/

namespace Autotype

/-- The latest event of a kind. -/
def latest? {ε : Type} (kind : ε → Bool) (es : List ε) : Option ε :=
  (es.filter kind).getLast?

section Latest

variable {ε : Type} (kind : ε → Bool) (es : List ε) {e : ε}

theorem latest?_concat (is : kind e = true) : latest? kind (es ++ [e]) = some e := by
  rw [latest?, List.filter_append, List.filter_cons_of_pos is, List.filter_nil, List.getLast?_concat]

theorem latest?_concat_other (other : kind e = false) :
    latest? kind (es ++ [e]) = latest? kind es := by
  have not : ¬ kind e = true := by
    rw [other]
    exact Bool.false_ne_true
  rw [latest?, List.filter_append, List.filter_cons_of_neg not, List.filter_nil, List.append_nil, latest?]

theorem latest?_append_others {others : List ε} (other : ∀ e ∈ others, kind e = false) :
    latest? kind (es ++ others) = latest? kind es := by
  have nothing : others.filter kind = [] := by
    refine List.filter_eq_nil_iff.mpr fun e mem => ?_
    rw [other e mem]
    exact Bool.false_ne_true
  rw [latest?, List.filter_append, nothing, List.append_nil, latest?]

/-- What each event of a kind decides by itself and all others leave alone is decided by the latest of that
kind. That has to be known of the usual states only, which no event leads out of. -/
theorem foldl_iff_latest? {σ : Type} {step : σ → ε → σ} {U P : σ → Prop} {Q : ε → Prop}
    (kept : ∀ s e, U s → U (step s e))
    (decides : ∀ s e, U s → kind e = true → (P (step s e) ↔ Q e))
    (leaves : ∀ s e, U s → kind e = false → (P (step s e) ↔ P s)) {s : σ} (first : U s) :
    U (es.foldl step s) ∧ (P (es.foldl step s) ↔ (latest? kind es).elim (P s) Q) := by
  induction es using List.reverseRecOn with
  | nil => exact ⟨first, Iff.rfl⟩
  | append_singleton es e ih =>
    obtain ⟨usual, before⟩ := ih
    rw [List.foldl_append, List.foldl_cons, List.foldl_nil]
    refine ⟨kept _ e usual, ?_⟩
    cases is : kind e with
    | true =>
      rw [latest?_concat kind es is]
      exact decides _ e usual is
    | false =>
      rw [latest?_concat_other kind es is]
      exact (leaves _ e usual is).trans before

end Latest

/-! ## The chip on the bench -/

/-- What happens to a chip. -/
inductive ChipEvent where
  | select
  | restart (reason : RestartReason)
  | fire
  | powerCycle
  deriving DecidableEq, Repr

/-- Whether an event changes what the next start will be. -/
def ChipEvent.decides : ChipEvent → Bool
  | .restart _ => false
  | .select | .fire | .powerCycle => true

namespace BenchChip

/-- What can happen to a chip from a power cycle on: the events, the modes that were selected among them, and
the chip after them. The watchdog fires only while it runs. -/
inductive Lived : List ChipEvent → List Mode → BenchChip → Prop
  | begun (c : BenchChip) : Lived [.powerCycle] [] c.powerCycle
  | select {es : List ChipEvent} {ms : List Mode} {c : BenchChip} : Lived es ms c →
    Lived (es ++ [.select]) (ms ++ [(selectMode c).1]) (selectMode c).2
  | restart {es : List ChipEvent} {ms : List Mode} {c : BenchChip} (reason : RestartReason) :
    Lived es ms c → Lived (es ++ [.restart reason]) ms (ResetControl.armRestart reason c)
  | fire {es : List ChipEvent} {ms : List Mode} {c : BenchChip} : Lived es ms c → c.watchdog = true →
    Lived (es ++ [.fire]) ms c.fire
  | powerCycle {es : List ChipEvent} {ms : List Mode} {c : BenchChip} : Lived es ms c →
    Lived (es ++ [.powerCycle]) ms c.powerCycle

/-- How a chip shows what happened to it. -/
structure Tells (es : List ChipEvent) (ms : List Mode) (c : BenchChip) : Prop where
  mode : (selectMode c).1 = .keyboard ↔ latest? ChipEvent.decides es = some .fire
  armed : c.watchdog = true → ∃ before reason since, es = before ++ .restart reason :: since ∧
    .select ∉ since
  fired : latest? ChipEvent.decides es = some .fire → ∃ before reason between since,
    es = before ++ .restart reason :: between ++ .fire :: since ∧ .select ∉ between ∧ .select ∉ since
  once : ms.count .keyboard + (if latest? ChipEvent.decides es = some .fire then 1 else 0) ≤ es.count .fire

variable {es : List ChipEvent} {ms : List Mode} {c : BenchChip}

theorem mode_of_causes {p b : ResetCause} (primary : c.primary = p) (backup : c.backup = b) :
    (selectMode c).1 = .ofCause (.resolve p b) := by
  rw [← primary, ← backup]
  rfl

theorem mode_selected (c : BenchChip) : (selectMode (selectMode c).2).1 = .programming :=
  (mode_of_causes (p := .none) (b := .none) rfl rfl).trans (by decide)

theorem mode_fired (c : BenchChip) : (selectMode c.fire).1 = .keyboard :=
  (mode_of_causes (p := .watchdog) (b := .watchdog) rfl rfl).trans (by decide)

theorem mode_powerCycled (c : BenchChip) : (selectMode c.powerCycle).1 = .programming :=
  (mode_of_causes (p := .powerOn) (b := .none) rfl rfl).trans (by decide)

/-- A start whose causes are not those of a watchdog, on a chip whose watchdog stands still. -/
theorem tells_programming (es : List ChipEvent) {e : ChipEvent} (is : e.decides = true) (other : e ≠ .fire)
    (mode : (selectMode c).1 = .programming) (still : c.watchdog = false)
    (once : ms.count .keyboard ≤ es.count .fire) : Tells (es ++ [e]) ms c := by
  have latest := latest?_concat ChipEvent.decides es is
  have not : latest? ChipEvent.decides (es ++ [e]) ≠ some .fire := by
    rw [latest]
    exact mt Option.some.inj other
  refine ⟨?_, ?_, fun fired => absurd fired not, ?_⟩
  · rw [mode]
    exact iff_of_false Mode.noConfusion not
  · intro armed
    rw [still] at armed
    cases armed
  · rw [if_neg not, List.count_append]
    omega

theorem Tells.select (tells : Tells es ms c) :
    Tells (es ++ [.select]) (ms ++ [(selectMode c).1]) (selectMode c).2 := by
  refine tells_programming es rfl ChipEvent.noConfusion c.mode_selected rfl ?_
  have once := tells.once
  rw [List.count_append, List.count_singleton]
  cases mode : (selectMode c).1 with
  | keyboard =>
    rw [if_pos (tells.mode.mp mode)] at once
    exact once
  | programming => exact Nat.le_trans (Nat.le_add_right _ _) once

theorem Tells.restart (tells : Tells es ms c) (reason : RestartReason) :
    Tells (es ++ [.restart reason]) ms (ResetControl.armRestart reason c) := by
  have latest := latest?_concat_other ChipEvent.decides es (e := .restart reason) rfl
  refine ⟨?_, fun _ => ⟨es, reason, [], rfl, List.not_mem_nil⟩, ?_, ?_⟩
  · rw [latest]
    exact tells.mode
  · rw [latest]
    intro fired
    obtain ⟨before, reason', between, since, rfl, quiet, quiet'⟩ := tells.fired fired
    refine ⟨before, reason', between, since ++ [.restart reason], ?_, quiet, ?_⟩
    · simp
    · simpa using quiet'
  · rw [latest, List.count_append]
    have once := tells.once
    omega

theorem Tells.fire (tells : Tells es ms c) (armed : c.watchdog = true) : Tells (es ++ [.fire]) ms c.fire := by
  have latest := latest?_concat ChipEvent.decides es (e := .fire) rfl
  refine ⟨iff_of_true c.mode_fired latest, fun still => ?_, fun _ => ?_, ?_⟩
  · cases still
  · obtain ⟨before, reason, since, rfl, quiet⟩ := tells.armed armed
    exact ⟨before, reason, since, [], rfl, quiet, List.not_mem_nil⟩
  · rw [if_pos latest, List.count_append]
    have once := tells.once
    have one : [ChipEvent.fire].count .fire = 1 := rfl
    omega

theorem Tells.powerCycle (tells : Tells es ms c) : Tells (es ++ [.powerCycle]) ms c.powerCycle :=
  tells_programming es rfl ChipEvent.noConfusion c.mode_powerCycled rfl
    (Nat.le_trans (Nat.le_add_right _ _) tells.once)

theorem Lived.tells (lived : Lived es ms c) : Tells es ms c := by
  induction lived with
  | begun c => exact tells_programming [] rfl ChipEvent.noConfusion c.mode_powerCycled rfl (Nat.le_refl _)
  | select _ tells => exact tells.select
  | restart reason _ tells => exact tells.restart reason
  | fire _ armed tells => exact tells.fire armed
  | powerCycle _ tells => exact tells.powerCycle

/-- After whatever happened to a chip since a power cycle, a start is one as a keyboard exactly if the
watchdog fired after the last start and the last power cycle. It leaves no cause behind and the watchdog
stopped. So a start as a keyboard was asked for by a restart since the start before it, and there are no more
of them than the watchdog fired. -/
theorem keyboard_iff_fired (lived : Lived es ms c) :
    ((selectMode c).1 = .keyboard ↔ latest? ChipEvent.decides es = some .fire) ∧
    ((selectMode c).2.primary = .none ∧ (selectMode c).2.backup = .none ∧
      (selectMode c).2.watchdog = false) ∧
    ((selectMode c).1 = .keyboard → ∃ before reason between since,
      es = before ++ .restart reason :: between ++ .fire :: since ∧
      .select ∉ between ∧ .select ∉ since) ∧
    (ms ++ [(selectMode c).1]).count .keyboard ≤ es.count .fire := by
  have tells := lived.tells
  refine ⟨tells.mode, ⟨rfl, rfl, rfl⟩, fun keyboard => tells.fired (tells.mode.mp keyboard), ?_⟩
  have once := tells.select.once
  have same : (es ++ [ChipEvent.select]).count .fire = es.count .fire := by
    rw [List.count_append]
    rfl
  rw [same] at once
  exact Nat.le_trans (Nat.le_add_right _ _) once

/-- A chip whose watchdog fired after its first start. -/
def firedOnce : BenchChip :=
  (ResetControl.armRestart .exitRequested (selectMode (powerCycle {})).2).fire

theorem keyboard_iff_fired_firedOnce :
    Lived [.powerCycle, .select, .restart .exitRequested, .fire] [.programming] firedOnce ∧
    ((selectMode firedOnce).1 = .keyboard ↔
      latest? ChipEvent.decides [.powerCycle, .select, .restart .exitRequested, .fire] = some .fire) ∧
    ((selectMode firedOnce).2.primary = .none ∧ (selectMode firedOnce).2.backup = .none ∧
      (selectMode firedOnce).2.watchdog = false) ∧
    ((selectMode firedOnce).1 = .keyboard → ∃ before reason between since,
      [.powerCycle, .select, .restart .exitRequested, .fire] =
        before ++ .restart reason :: between ++ .fire :: since ∧
      ChipEvent.select ∉ between ∧ ChipEvent.select ∉ since) ∧
    ([Mode.programming] ++ [(selectMode firedOnce).1]).count .keyboard ≤
      [ChipEvent.powerCycle, .select, .restart .exitRequested, .fire].count .fire := by
  have lived : Lived [.powerCycle, .select, .restart .exitRequested, .fire]
      [(selectMode (powerCycle {})).1] firedOnce :=
    .fire (.restart .exitRequested (.select (.begun {}))) rfl
  rw [mode_powerCycled] at lived
  exact ⟨lived, keyboard_iff_fired lived⟩

end BenchChip

end Autotype
