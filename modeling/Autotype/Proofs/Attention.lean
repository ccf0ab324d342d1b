import Autotype.Bench.Basic
import Autotype.Proofs.Recorded

/-!
# Attentive hosts

An engine waits for its host in two ways: it polls until the host can take a report, and it polls once
after a character. A host attends to a number of such waits if in each of them the polls come back and, for
a report, the host is ready after finitely many (`Transport.Attends`). Actions that wait no more often than
the host attends come back (`Station.perform_of_attends`).
-/

namespace Autotype

/-! ## Conditions that come about -/

/-- Whether polls that come back lead to a condition. -/
inductive ByPolling {σ : Type} [Surroundings σ] (done : σ → Bool) : σ → Prop
  | now {s : σ} (holds : done s = true) : ByPolling done s
  | later {s t : σ} (back : Surroundings.poll s = .ok () t) (rest : ByPolling done t) :
    ByPolling done s

section Inside

variable {σ τ : Type} [Surroundings σ] [Surroundings τ]

/-- Whether a world is polled by polling a world inside it. -/
def PollsInside (put : σ → τ) : Prop :=
  ∀ s, Surroundings.poll (put s) =
    match Surroundings.poll s with
    | .ok u t => .ok u (put t)
    | .error e t => .error e (put t)

variable {put : σ → τ} {done : σ → Bool} {done' : τ → Bool} {s : σ}

theorem ByPolling.inside (h : ByPolling done s) (polls : PollsInside put)
    (same : ∀ s, done' (put s) = done s) : ByPolling done' (put s) := by
  induction h with
  | now holds => exact .now ((same _).trans holds)
  | later back _ ih =>
    refine .later ?_ ih
    rw [polls, back]

/-- A wait takes the same course in a world around the one in which the polls are made. -/
theorem PollsInside.pollUntil (polls : PollsInside put) (same : ∀ s, done' (put s) = done s) (s : σ) :
    pollUntil done' (put s) =
      match pollUntil done s with
      | .ok u t => .ok u (put t)
      | .error e t => .error e (put t) := by
  induction s using Surroundings.poll_induction with
  | step s ih =>
    rw [pollUntil_eq done' (put s), pollUntil_eq done s, same, polls]
    by_cases holds : done s = true
    · rw [if_pos holds, if_pos holds]
    · rw [if_neg holds, if_neg holds]
      cases poll : Surroundings.poll s with
      | ok u t => exact ih t poll
      | error e t => rfl

/-- Whoever polls until a condition holds to which the polls lead comes back. -/
theorem ByPolling.pollUntil (h : ByPolling done s) : ∃ t, pollUntil done s = .ok () t := by
  induction h with
  | @now s holds => exact ⟨s, by rw [pollUntil_eq, if_pos holds]⟩
  | @later s t back _ ih =>
    by_cases holds : done s = true
    · exact ⟨s, by rw [pollUntil_eq, if_pos holds]⟩
    · rw [pollUntil_eq, if_neg holds, back]
      exact ih

theorem Recorded.pollsInside (sent : List Report) :
    PollsInside fun host : σ => (⟨host, sent⟩ : Recorded σ) :=
  fun _ => rfl

theorem Station.pollsInside (e : Engine) : PollsInside fun host : σ => (⟨e, host⟩ : Station σ) := by
  intro host
  show onHost Surroundings.poll (⟨e, host⟩ : Station σ) = _
  unfold onHost
  cases Surroundings.poll host <;> rfl

end Inside

/-! ## Hosts -/

variable {σ : Type} [Surroundings σ] [Transport σ]

/-- Whether a host attends to whoever waits for it the next `waits` times: a single poll comes back, and so
do the polls until the host is ready for a report. -/
def Transport.Attends : Nat → σ → Prop
  | 0, _ => True
  | waits + 1, s =>
    (∃ t, Surroundings.poll s = .ok () t ∧ Attends waits t) ∧
    ByPolling isReady s ∧
    ∀ t, pollUntil isReady s = .ok () t → ∀ r, Attends waits (send r t)

/-- Whether an action waits for the host. -/
def Action.waits : Action → Bool
  | .send | .poll => true
  | _ => false

theorem Recorded.attends {waits : Nat} {host : σ} (h : Transport.Attends waits host)
    (sent : List Report) : Transport.Attends waits (⟨host, sent⟩ : Recorded σ) := by
  induction waits generalizing host sent with
  | zero => trivial
  | succ waits ih =>
    obtain ⟨⟨t, back, rest⟩, ready, later⟩ := h
    have same : ∀ s : σ, Transport.isReady (⟨s, sent⟩ : Recorded σ) = Transport.isReady s :=
      fun _ => rfl
    refine ⟨⟨⟨t, sent⟩, ?_, ih rest sent⟩, ready.inside (Recorded.pollsInside sent) same, ?_⟩
    · rw [pollsInside sent host, back]
    · intro u waited r
      obtain ⟨v, inner⟩ := ready.pollUntil
      rw [(pollsInside sent).pollUntil same, inner] at waited
      cases waited
      exact ih (later v inner r) (sent ++ [r])

namespace Station

theorem act_of_attends {a : Action} {n : Nat} {s : Station σ}
    (h : Transport.Attends (n + a.waits.toNat) s.host) :
    ∃ t, act a s = .ok () t ∧ Transport.Attends n t.host := by
  cases a with
  | send =>
    obtain ⟨-, ready, later⟩ := h
    have same : ∀ host : σ, Transport.isReady (⟨s.engine, host⟩ : Station σ) = Transport.isReady host :=
      fun _ => rfl
    obtain ⟨t, inner⟩ := ready.pollUntil
    have outer := (pollsInside s.engine).pollUntil same s.host
    rw [inner] at outer
    refine ⟨⟨s.engine.act .send, Transport.send s.engine.heldReport t⟩, ?_, later t inner _⟩
    simp only [act, bind, EStateM.bind]
    rw [show pollUntil Transport.isReady s = .ok () ⟨s.engine, t⟩ from outer]
    rfl
  | poll =>
    obtain ⟨⟨t, back, rest⟩, -⟩ := h
    refine ⟨⟨s.engine, t⟩, ?_, rest⟩
    show Surroundings.poll (⟨s.engine, s.host⟩ : Station σ) = _
    rw [pollsInside s.engine s.host, back]
  | _ => exact ⟨_, rfl, h⟩

theorem perform_of_attends {as : List Action} {s : Station σ}
    (h : Transport.Attends (as.countP Action.waits) s.host) : ∃ t, perform as s = .ok () t := by
  induction as generalizing s with
  | nil => exact ⟨s, rfl⟩
  | cons a as ih =>
    rw [List.countP_cons] at h
    obtain ⟨t, first, rest⟩ := act_of_attends (a := a) (by cases hw : a.waits <;> simpa [hw] using h)
    obtain ⟨u, done⟩ := ih rest
    refine ⟨u, ?_⟩
    simp only [perform, bind, EStateM.bind, first]
    exact done

variable {μ : Type} [Medium μ]

/-- A tick comes back if the host attends to the waits in it. -/
theorem tick_of_attends {layout : Layout} {store : Store μ} {s : Station σ}
    (h : Transport.Attends
      ((s.engine.actions layout store.scriptByte (Surroundings.now s)).countP Action.waits) s.host) :
    ∃ t, tick layout store s = .ok () t :=
  perform_of_attends h

end Station

/-! ## The bench -/

namespace Bench

theorem becomes_ready {b : Bench} (enough : b.busy ≤ b.budget - b.polls) :
    ByPolling Transport.isReady b := by
  generalize busy : b.busy = n at enough
  induction n generalizing b with
  | zero =>
    refine .now ?_
    simp only [Transport.isReady, busy]
    rfl
  | succ n ih =>
    have back : Surroundings.poll b = .ok () b.polled := if_pos (by omega)
    refine .later back (ih ?_ ?_)
    · simp only [polled, busy]
      rfl
    · simp only [polled]
      omega

/-- A wait until the host is ready takes as many polls as the host is busy. -/
theorem polls_pollUntil {b t : Bench} (waited : pollUntil Transport.isReady b = .ok () t) :
    t.polls ≤ b.polls + b.busy ∧ t.budget = b.budget ∧ t.busyAfter = b.busyAfter := by
  have step : ∀ u v : Bench,
      u.polls + u.busy ≤ b.polls + b.busy ∧ u.budget = b.budget ∧ u.busyAfter = b.busyAfter →
      Transport.isReady u = false → Surroundings.poll u = .ok () v →
      v.polls + v.busy ≤ b.polls + b.busy ∧ v.budget = b.budget ∧ v.busyAfter = b.busyAfter := by
    intro u v kept notReady back
    have busy : u.busy ≠ 0 := by
      simpa [Transport.isReady] using notReady
    simp only [Surroundings.poll] at back
    split at back
    · cases back
      simp only [polled]
      omega
    · cases back
  obtain ⟨⟨polls, same⟩, -⟩ := pollUntil_ok step ⟨Nat.le_refl _, rfl, rfl⟩ waited
  exact ⟨by omega, same⟩

/-- A host that is never busy for more than `most` polls attends as long as there are polls. -/
theorem attends {waits most : Nat} {b : Bench} (busy : b.busy ≤ most) (after : b.busyAfter ≤ most)
    (enough : waits * (most + 1) ≤ b.budget - b.polls) : Transport.Attends waits b := by
  induction waits generalizing b with
  | zero => trivial
  | succ waits ih =>
    rw [Nat.succ_mul] at enough
    have back : Surroundings.poll b = .ok () b.polled := if_pos (by omega)
    refine ⟨⟨b.polled, back, ih ?_ after ?_⟩, becomes_ready (by omega), ?_⟩
    · simp only [polled]
      omega
    · simp only [polled]
      omega
    · intro t waited r
      obtain ⟨polls, budget, same⟩ := polls_pollUntil waited
      refine ih ?_ ?_ ?_
      · simp only [Transport.send, note]
        omega
      · simp only [Transport.send, note]
        omega
      · simp only [Transport.send, note]
        omega

end Bench

end Autotype
