import Autotype.Proofs.Calls

/-!
# Assertions about routines

What is known of the world when a routine begins says something about the world in which it comes back, and
about the one in which it is given up (`Routine.Takes`). Routines that follow each other pass such knowledge
on (`Routine.Takes.bind`), and a loop keeps what each of its rounds keeps (`Routine.takes_loop`).
-/

namespace Autotype

namespace Routine

variable {σ α β : Type} {P R R' : σ → Prop} {Q : α → σ → Prop}

/-- Whether a routine that begins in a world of the first kind comes back in one of the second, or is given
up in one of the third. -/
def Takes (P : σ → Prop) (routine : Routine σ α) (Q : α → σ → Prop) (R : σ → Prop) : Prop :=
  ∀ s, P s →
    match routine s with
    | .ok a t => Q a t
    | .error _ t => R t

variable {r : Routine σ α}

theorem Takes.worldAfter (takes : Takes P r (fun _ => R) R) {s : σ} (before : P s) :
    R (worldAfter r s) := by
  have found := takes s before
  unfold Routine.worldAfter
  cases course : r s with
  | ok a t =>
    rw [course] at found
    exact found
  | error e t =>
    rw [course] at found
    exact found

theorem Takes.lost (takes : Takes P r Q R) (weaker : ∀ s, R s → R' s) : Takes P r Q R' := by
  intro s before
  have found := takes s before
  cases course : r s with
  | ok a t =>
    rw [course] at found
    exact found
  | error e t =>
    rw [course] at found
    exact weaker t found

theorem Takes.bind {f : α → Routine σ β} {Q' : β → σ → Prop} (first : Takes P r Q R)
    (rest : ∀ a, Takes (Q a) (f a) Q' R) : Takes P (r >>= f) Q' R := by
  intro s before
  have found := first s before
  simp only [Bind.bind, EStateM.bind]
  cases course : r s with
  | ok a t =>
    rw [course] at found
    exact rest a t found
  | error e t =>
    rw [course] at found
    exact found

theorem takes_modify {f : σ → σ} {Q : Unit → σ → Prop} (leads : ∀ s, P s → Q () (f s)) :
    Takes P (modify f) Q R :=
  fun s before => leads s before

theorem takes_pure (a : α) (leads : ∀ s, P s → Q a s) : Takes P (pure a) Q R :=
  fun s before => leads s before

/-- One round of a loop, and what follows when it asks for more. -/
theorem takes_round {body : β → Routine σ (α ⊕ β)} {rest : β → Routine σ α} {b : β}
    (round : Takes P (body b) (fun next s => next.elim (Q · s) fun _ => P s) R)
    (more : ∀ b, Takes P (rest b) Q R) :
    Takes P
      (fun s =>
        match body b s with
        | .ok (.inl a) t => .ok a t
        | .ok (.inr b') t => rest b' t
        | .error e t => .error e t) Q R := by
  intro s before
  have found := round s before
  simp only
  cases course : body b s with
  | ok next t =>
    rw [course] at found
    cases next with
    | inl a => exact found
    | inr b' => exact more b' t found
  | error e t =>
    rw [course] at found
    exact found

/-- What each round of a loop keeps, the loop keeps. -/
theorem takes_loop [Surroundings σ] {body : β → Routine σ (α ⊕ β)} (weaker : ∀ s, P s → R s)
    (round : ∀ b, Takes P (body b) (fun next s => next.elim (Q · s) fun _ => P s) R) (b : β) :
    Takes P (loop body b) Q R := by
  have rounds : ∀ n b, Takes P (iterate body n b) Q R := by
    intro n
    induction n with
    | zero => exact fun b => takes_round (round b) fun _ => weaker
    | succ n ih => exact fun b => takes_round (round b) ih
  exact fun s before => rounds _ b s before

end Routine

end Autotype
