import Autotype.Engine.Action
import Autotype.Routine.Wait

/-!
# An engine at a host

A station is an engine together with the world its host lives in. Performing an action changes the
engine, hands a report to the host or polls; a report is handed over only once the host can take it, and
it shows what is held at that moment. All that can be done in the host's world can be done at a station,
so the waits apply to it unchanged.
-/

namespace Autotype

/-- An engine and the world of its host. -/
structure Station (σ : Type) where
  engine : Engine
  host : σ

namespace Station

variable {σ : Type}

/-- Runs a routine of the host's world while the engine rests. -/
def onHost {α : Type} (routine : Routine σ α) : Routine (Station σ) α := fun s =>
  match routine s.host with
  | .ok a host => .ok a { s with host := host }
  | .error e host => .error e { s with host := host }

variable [Surroundings σ]

instance : Surroundings (Station σ) where
  now s := Surroundings.now s.host
  poll := onHost Surroundings.poll
  patience s := Surroundings.patience s.host
  patience_poll {s s'} h := by
    unfold onHost at h
    cases hp : Surroundings.poll s.host with
    | ok u t =>
      rw [hp] at h
      cases h
      exact Surroundings.patience_poll hp
    | error e t =>
      rw [hp] at h
      cases h

instance [Transport σ] : Transport (Station σ) where
  isReady s := Transport.isReady s.host
  isConnected s := Transport.isConnected s.host
  send r s := { s with host := Transport.send r s.host }
  patience_send r s := Transport.patience_send r s.host

instance [StatusLight σ] : StatusLight (Station σ) where
  setLight lit s := { s with host := StatusLight.setLight lit s.host }
  patience_setLight lit s := StatusLight.patience_setLight lit s.host

theorem engine_poll {s t : Station σ} (h : Surroundings.poll s = .ok () t) :
    t.engine = s.engine := by
  simp only [Surroundings.poll, onHost] at h
  split at h
  · cases h
    rfl
  · cases h

theorem engine_pollUntil {done : Station σ → Bool} {s t : Station σ}
    (h : pollUntil done s = .ok () t) : t.engine = s.engine := by
  have kept : ∀ u v : Station σ, u.engine = s.engine → done u = false →
      Surroundings.poll u = .ok () v → v.engine = s.engine :=
    fun _ _ hu _ hp => (engine_poll hp).trans hu
  exact (pollUntil_ok kept rfl h).1

variable [Transport σ]

def act : Action → Routine (Station σ) Unit
  | .send => do
    pollUntil Transport.isReady
    modify fun s => Transport.send s.engine.heldReport { s with engine := s.engine.act .send }
  | .poll => Surroundings.poll
  | action => modify fun s => { s with engine := s.engine.act action }

/-- Performs actions one after the other. -/
def perform : List Action → Routine (Station σ) Unit
  | [] => pure ()
  | action :: rest => do
    act action
    perform rest

/-- An action that is performed to its end changes the engine as it should, and leaves no more patience
than there was. -/
theorem act_ok {a : Action} {s t : Station σ} (h : act a s = .ok () t) :
    t.engine = s.engine.act a ∧ Surroundings.patience t ≤ Surroundings.patience s := by
  cases a with
  | send =>
    simp only [act, bind, EStateM.bind] at h
    split at h
    · next u hu =>
      cases h
      have kept := engine_pollUntil hu
      obtain ⟨_, _, less⟩ := pollUntil_ok (P := fun _ => True) (fun _ _ _ _ _ => trivial) trivial hu
      refine ⟨?_, Nat.le_trans (Transport.patience_send _ u.host) less⟩
      show u.engine.act .send = s.engine.act .send
      rw [kept]
    · cases h
  | poll => exact ⟨engine_poll h, Nat.le_of_lt (Surroundings.patience_poll h)⟩
  | _ =>
    cases h
    exact ⟨rfl, Nat.le_refl _⟩

/-- Whatever the host does meanwhile, actions performed to their end leave the engine that they lead to. -/
theorem perform_ok {as : List Action} {s t : Station σ} (h : perform as s = .ok () t) :
    t.engine = s.engine.acts as ∧ Surroundings.patience t ≤ Surroundings.patience s := by
  induction as generalizing s with
  | nil =>
    cases h
    exact ⟨rfl, Nat.le_refl _⟩
  | cons a as ih =>
    simp only [perform, bind, EStateM.bind] at h
    split at h
    · next u hu =>
      obtain ⟨done, less⟩ := act_ok hu
      obtain ⟨rest, less'⟩ := ih h
      exact ⟨by rw [rest, done, Engine.acts_cons], Nat.le_trans less' less⟩
    · cases h

variable {μ : Type} [Medium μ]

/-- Lets the engine do one piece of work on the script in a store. -/
def tick (layout : Layout) (store : Store μ) : Routine (Station σ) Unit := do
  let s ← get
  perform (s.engine.actions layout store.scriptByte (Surroundings.now s))

/-- Makes the engine let go of everything and go idle. -/
def stop : Routine (Station σ) Unit :=
  perform Engine.stopping

/-- A tick that comes back leaves the engine after a tick. -/
theorem tick_ok {layout : Layout} {store : Store μ} {s t : Station σ}
    (h : tick layout store s = .ok () t) :
    t.engine = s.engine.tick layout store.scriptByte (Surroundings.now s) ∧
      Surroundings.patience t ≤ Surroundings.patience s :=
  perform_ok h

end Station

end Autotype
