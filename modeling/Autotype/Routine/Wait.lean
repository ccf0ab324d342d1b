import Autotype.Clock
import Autotype.Keyboard.Report
import Autotype.Routine.Basic

/-!
# Waiting

Nothing on the device blocks: whoever waits keeps polling, so that the host is served meanwhile. Here
are the waits that the rest is made of, for a condition, for a span of time and for a host, and the
blinking of the status light, which is two such waits for each flash.
-/

namespace Autotype

/-- A world with a host to which keyboard reports can be handed. -/
class Transport (σ : Type) [Surroundings σ] where
  isReady : σ → Bool
  isConnected : σ → Bool
  send : Report → σ → σ
  patience_send : ∀ (r : Report) (s : σ),
    Surroundings.patience (send r s) ≤ Surroundings.patience s

/-- A world with a status light. -/
class StatusLight (σ : Type) [Surroundings σ] where
  setLight : Bool → σ → σ
  patience_setLight : ∀ (lit : Bool) (s : σ),
    Surroundings.patience (setLight lit s) ≤ Surroundings.patience s

variable {σ : Type} [Surroundings σ]

/-- One look at a condition, and a poll if it does not hold. -/
def lookOnce (done : σ → Bool) (_ : Unit) : Routine σ (Unit ⊕ Unit) := fun s =>
  if done s then .ok (.inl ()) s
  else
    match Surroundings.poll s with
    | .ok _ s' => .ok (.inr ()) s'
    | .error e s' => .error e s'

def pollUntil (done : σ → Bool) : Routine σ Unit :=
  Routine.loop (lookOnce done) ()

/-- Polls until `ms` milliseconds have passed. -/
def waitMs (ms : UInt32) : Routine σ Unit := do
  let start := Surroundings.now (← get)
  pollUntil fun s => elapsed (Surroundings.now s) start ms

def waitForHost [Transport σ] : Routine σ Unit :=
  pollUntil Transport.isConnected

def setLight [StatusLight σ] (lit : Bool) : Routine σ Unit :=
  modify (StatusLight.setLight lit)

/-- Flashes the status light a number of times. -/
def blink [StatusLight σ] (on off : UInt32) : Nat → Routine σ Unit
  | 0 => pure ()
  | count + 1 => do
    setLight true
    waitMs on
    setLight false
    waitMs off
    blink on off count

theorem polls_lookOnce (done : σ → Bool) : Routine.Polls (lookOnce done) := by
  intro _ _ s s' h
  unfold lookOnce at h
  split at h
  · cases h
  · split at h
    · next hp =>
      cases h
      exact Surroundings.patience_poll hp
    · cases h

/-- Polling until a condition holds is one look at it, and the same again after a poll. -/
theorem pollUntil_eq (done : σ → Bool) (s : σ) :
    pollUntil done s =
      if done s then .ok () s
      else
        match Surroundings.poll s with
        | .ok _ s' => pollUntil done s'
        | .error e s' => .error e s' := by
  rw [pollUntil, Routine.loop_eq (polls_lookOnce done)]
  by_cases hd : done s = true
  · simp [lookOnce, hd]
  · cases hp : Surroundings.poll s <;> simp only [lookOnce, hd, hp] <;> rfl

/-- What holds at first, and still holds after every poll that comes back while the condition does not,
holds at the end of a wait; so does the condition, and patience has not grown. -/
theorem pollUntil_ok {done : σ → Bool} {P : σ → Prop}
    (step : ∀ s s' : σ, P s → done s = false → Surroundings.poll s = .ok () s' → P s') :
    ∀ {s t : σ}, P s → pollUntil done s = .ok () t →
      P t ∧ done t = true ∧ Surroundings.patience t ≤ Surroundings.patience s := by
  intro s
  induction s using Surroundings.poll_induction with
  | step s ih =>
    intro t hs ht
    rw [pollUntil_eq] at ht
    split at ht
    · next hd =>
      cases ht
      exact ⟨hs, hd, Nat.le_refl _⟩
    · next hd =>
      split at ht
      · next s' hp =>
        have less := Surroundings.patience_poll hp
        obtain ⟨ht', hd', hle⟩ := ih s' hp (step s s' hs (by simpa using hd) hp) ht
        exact ⟨ht', hd', by omega⟩
      · cases ht

/-- What no poll makes less is not made less by a wait. -/
theorem le_of_pollUntil {measure : σ → Nat}
    (step : ∀ {s t : σ}, Surroundings.poll s = .ok () t → measure s ≤ measure t) {done : σ → Bool} {s t : σ}
    (waited : pollUntil done s = .ok () t) : measure s ≤ measure t :=
  (pollUntil_ok (P := fun u => measure s ≤ measure u) (fun _ _ le _ poll => Nat.le_trans le (step poll))
    (Nat.le_refl _) waited).1

end Autotype
