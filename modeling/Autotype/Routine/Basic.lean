/-!
# Routines

The device spends its life in routines that wait for the world around it: a poll may take time, and it
may never come back. A routine runs from one state of that world to another and either comes back with
an answer or is given up, and in both cases there is a state in which it left the world. `Surroundings`
is what a routine can wait in. Every state there bounds the polls that can still come back, so a loop
that polls in each round ends, one way or the other; `Routine.loop_eq` is its unfolding.
-/

namespace Autotype

/-- The answer of a routine that never came back. -/
inductive GaveUp where
  | gaveUp
  deriving DecidableEq, Repr

/-- Something that runs in a world of type `σ` and comes back with an `α`, or is given up. -/
abbrev Routine (σ α : Type) := EStateM GaveUp σ α

namespace Routine

variable {σ α β : Type}

/-- Repeats `body` until it answers on the left, at most `n + 1` times. -/
def iterate (body : β → Routine σ (α ⊕ β)) : Nat → β → Routine σ α
  | 0, b => fun s =>
    match body b s with
    | .ok (.inl a) s' => .ok a s'
    | .ok (.inr _) s' => .error .gaveUp s'
    | .error e s' => .error e s'
  | n + 1, b => fun s =>
    match body b s with
    | .ok (.inl a) s' => .ok a s'
    | .ok (.inr b') s' => iterate body n b' s'
    | .error e s' => .error e s'

end Routine

/-- A world in which a routine can read the clock and wait. -/
class Surroundings (σ : Type) where
  now : σ → UInt32
  /-- Waits a little, while the world goes on. -/
  poll : Routine σ Unit
  /-- A bound on the polls that can still come back. -/
  patience : σ → Nat
  patience_poll : ∀ {s s' : σ}, poll s = .ok () s' → patience s' < patience s

/-- By induction on the polls that can still come back: what holds in a world whenever it holds after a poll
that comes back there, holds in every world. -/
theorem Surroundings.poll_induction {σ : Type} [Surroundings σ] {P : σ → Prop}
    (step : ∀ s, (∀ t, poll s = .ok () t → P t) → P s) (s : σ) : P s := by
  induction left : patience s using Nat.strongRecOn generalizing s with
  | ind n ih =>
    refine step s fun t back => ?_
    have less := patience_poll back
    exact ih _ (by omega) t rfl

namespace Routine

variable {σ α β : Type} [Surroundings σ]

/-- Repeats `body` until it answers on the left. Each round has to poll. -/
def loop (body : β → Routine σ (α ⊕ β)) (b : β) : Routine σ α := fun s =>
  iterate body (Surroundings.patience s) b s

/-- A round that uses up patience whenever another one is to follow. -/
def Polls (body : β → Routine σ (α ⊕ β)) : Prop :=
  ∀ (b b' : β) (s s' : σ), body b s = .ok (.inr b') s' → Surroundings.patience s' < Surroundings.patience s

/-- More rounds than there is patience for make no difference. -/
theorem iterate_eq_of_le {body : β → Routine σ (α ⊕ β)} (polls : Polls body) :
    ∀ (n : Nat) (b : β) (s : σ), Surroundings.patience s ≤ n →
      iterate body n b s = iterate body (Surroundings.patience s) b s := by
  intro n
  induction n using Nat.strongRecOn with
  | ind n ih =>
    intro b s hn
    cases n with
    | zero => rw [Nat.le_zero.mp hn]
    | succ n =>
      cases h : body b s with
      | error e s' => cases hp : Surroundings.patience s <;> simp [iterate, h]
      | ok r s' =>
        cases r with
        | inl a => cases hp : Surroundings.patience s <;> simp [iterate, h]
        | inr b' =>
          have less := polls _ _ _ _ h
          cases hp : Surroundings.patience s with
          | zero => omega
          | succ p =>
            simp only [iterate, h]
            rw [ih n (Nat.lt_succ_self n) b' s' (by omega), ih p (by omega) b' s' (by omega)]

/-- A loop is its first round, and the loop again where that round asks for it. -/
theorem loop_eq {body : β → Routine σ (α ⊕ β)} (polls : Polls body) (b : β) (s : σ) :
    loop body b s =
      match body b s with
      | .ok (.inl a) s' => .ok a s'
      | .ok (.inr b') s' => loop body b' s'
      | .error e s' => .error e s' := by
  cases h : body b s with
  | error e s' => cases hp : Surroundings.patience s <;> simp [loop, iterate, h, hp]
  | ok r s' =>
    cases r with
    | inl a => cases hp : Surroundings.patience s <;> simp [loop, iterate, h, hp]
    | inr b' =>
      have less := polls _ _ _ _ h
      cases hp : Surroundings.patience s with
      | zero => omega
      | succ p =>
        simp only [loop, hp, iterate, h]
        exact iterate_eq_of_le polls p b' s' (by omega)

end Routine

end Autotype
