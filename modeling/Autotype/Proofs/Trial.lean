import Autotype.Bench.Basic
import Autotype.Proofs.Run

/-!
# Runs on the bench

On the bench a run can be carried out. Nothing has to be known of its ticks but that they come back, which
is decided by performing them.
-/

namespace Autotype

namespace Station

variable {μ : Type} [Medium μ]

/-- Whether a tick comes back. -/
def comesBack (layout : Layout) (store : Store μ) (s : Station (Recorded Bench)) : Bool :=
  match tick layout store s with
  | .ok _ _ => true
  | .error _ _ => false

/-- A station on the bench after some ticks, with a millisecond after each. -/
def afterTicks (layout : Layout) (store : Store μ) (s : Station (Recorded Bench)) :
    Nat → Station (Recorded Bench)
  | 0 => s
  | n + 1 =>
    match tick layout store (afterTicks layout store s n) with
    | .ok _ t | .error _ t => { t with host := { t.host with host := t.host.host.advance 1 } }

theorem afterTicks_succ {layout : Layout} {store : Store μ} {s : Station (Recorded Bench)} {n : Nat}
    (back : comesBack layout store (afterTicks layout store s n) = true) :
    ∃ t, tick layout store (afterTicks layout store s n) = .ok () t ∧
      (afterTicks layout store s (n + 1)).engine = t.engine ∧
      (afterTicks layout store s (n + 1)).host.sent = t.host.sent := by
  unfold comesBack at back
  cases h : tick layout store (afterTicks layout store s n) with
  | ok u t => exact ⟨t, rfl, by rw [afterTicks, h], by rw [afterTicks, h]⟩
  | error e t =>
    rw [h] at back
    cases back

end Station

/-- The run on the bench from a station on, which stops with the tick of that number. -/
def Run.onBench {layout : Layout} {μ : Type} [Medium μ] {store : Store μ}
    (s : Station (Recorded Bench)) (last : Nat)
    (back : ∀ i < last, Station.comesBack layout store (Station.afterTicks layout store s i) = true)
    (stopped : (Station.afterTicks layout store s last).engine.isRunning = false) :
    Run layout store Bench :=
  .ofLast (Station.afterTicks layout store s) last
    (fun i before => Station.afterTicks_succ (back i before)) stopped

theorem Run.onBench_lt_of_isRunning {layout : Layout} {μ : Type} [Medium μ] {store : Store μ}
    {s : Station (Recorded Bench)} {last i : Nat}
    {back : ∀ i < last, Station.comesBack layout store (Station.afterTicks layout store s i) = true}
    {stopped : (Station.afterTicks layout store s last).engine.isRunning = false}
    (due : ((onBench s last back stopped).engine i).isRunning = true) : i < last := by
  refine Nat.lt_of_not_le fun past => ?_
  have there : (Station.afterTicks layout store s (min i last)).engine.isRunning = true := due
  rw [Nat.min_eq_right past, stopped] at there
  cases there

end Autotype
