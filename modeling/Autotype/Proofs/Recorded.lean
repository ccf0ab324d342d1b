import Autotype.Engine.Station

/-!
# Worlds with a record

Any world of a host becomes one with a record when each report that is handed over in it is also written
down; nothing else about it changes. At a station in such a world the record grows by just the reports
that the engine's actions stand for, however long the host keeps the engine waiting in between.
-/

namespace Autotype

/-- A world of a host, and the reports handed over in it, the first one first. -/
structure Recorded (σ : Type) where
  host : σ
  sent : List Report := []

namespace Recorded

variable {σ : Type} [Surroundings σ]

def poll : Routine (Recorded σ) Unit := fun r =>
  match Surroundings.poll r.host with
  | .ok u host => .ok u { r with host := host }
  | .error e host => .error e { r with host := host }

theorem poll_ok {r r' : Recorded σ} (h : poll r = .ok () r') :
    Surroundings.poll r.host = .ok () r'.host ∧ r'.sent = r.sent := by
  unfold poll at h
  split at h
  · next hp =>
    cases h
    exact ⟨hp, rfl⟩
  · cases h

instance : Surroundings (Recorded σ) where
  now r := Surroundings.now r.host
  poll := poll
  patience r := Surroundings.patience r.host
  patience_poll h := Surroundings.patience_poll (poll_ok h).1

instance [Transport σ] : Transport (Recorded σ) where
  isReady r := Transport.isReady r.host
  isConnected r := Transport.isConnected r.host
  send report r := { host := Transport.send report r.host, sent := r.sent ++ [report] }
  patience_send report r := Transport.patience_send report r.host

end Recorded

namespace Station

variable {σ : Type} [Surroundings σ] {s t : Station (Recorded σ)}

theorem sent_poll (h : Surroundings.poll s = .ok () t) : t.host.sent = s.host.sent := by
  simp only [Surroundings.poll, onHost] at h
  split at h
  · next hp =>
    cases h
    exact (Recorded.poll_ok hp).2
  · cases h

theorem sent_pollUntil {done : Station (Recorded σ) → Bool} (h : pollUntil done s = .ok () t) :
    t.host.sent = s.host.sent := by
  have kept : ∀ u v : Station (Recorded σ), u.host.sent = s.host.sent → done u = false →
      Surroundings.poll u = .ok () v → v.host.sent = s.host.sent :=
    fun _ _ hu _ hp => (sent_poll hp).trans hu
  exact (pollUntil_ok kept rfl h).1

variable [Transport σ]

theorem sent_act {a : Action} (h : act a s = .ok () t) :
    t.host.sent = s.host.sent ++ s.engine.reports [a] := by
  cases a with
  | send =>
    simp only [act, bind, EStateM.bind] at h
    split at h
    · next u hu =>
      cases h
      show u.host.sent ++ [u.engine.heldReport] = s.host.sent ++ [s.engine.heldReport]
      rw [sent_pollUntil hu, engine_pollUntil hu]
    · cases h
  | poll =>
    rw [sent_poll h]
    exact (List.append_nil _).symm
  | _ =>
    cases h
    exact (List.append_nil _).symm

/-- Actions performed to their end add to the record the reports that they stand for. -/
theorem sent_perform {as : List Action} (h : perform as s = .ok () t) :
    t.host.sent = s.host.sent ++ s.engine.reports as := by
  induction as generalizing s with
  | nil =>
    cases h
    exact (List.append_nil _).symm
  | cons a as ih =>
    simp only [perform, bind, EStateM.bind] at h
    split at h
    · next u hu =>
      have first := Engine.reports_append s.engine [a] as
      rw [List.singleton_append, Engine.acts_cons, Engine.acts_nil] at first
      rw [ih h, sent_act hu, (act_ok hu).1, List.append_assoc, first]
    · cases h

theorem sent_tick {μ : Type} [Medium μ] {layout : Layout} {store : Store μ}
    (h : tick layout store s = .ok () t) :
    t.host.sent = s.host.sent ++
      s.engine.reports (s.engine.actions layout store.scriptByte (Surroundings.now s)) :=
  sent_perform h

end Station

end Autotype
