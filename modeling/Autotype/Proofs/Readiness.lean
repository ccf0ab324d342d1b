import Autotype.Bench.Basic
import Autotype.Engine.Typing
import Autotype.Proofs.Assertions
import Autotype.Proofs.Attention

/-!
# Nothing is typed too early

As a keyboard the device first waits for a host, then blinks and waits for as long as the script asks. All
that is seen of it is noted together with the world at that moment (`Observed`), and what its clock reads is
compared with the true time (`TrueTime`): each wait takes at least as long as it should, since the clock can
only come round. So the light is switched before anything is typed, and nothing is typed before the host was
found and the flashes and the initial delay have passed since (`Station.types_when_ready`).
-/

namespace Autotype

/-! ## Worlds that are observed -/

/-- A world with a note of what was seen of the device in it and of what the world was like then. -/
structure Observed (σ : Type) where
  host : σ
  seen : List (Sighting × σ) := []

namespace Observed

variable {σ : Type} [Surroundings σ]

instance : Surroundings (Observed σ) where
  now w := Surroundings.now w.host
  poll w :=
    match Surroundings.poll w.host with
    | .ok u host => .ok u { w with host := host }
    | .error e host => .error e { w with host := host }
  patience w := Surroundings.patience w.host
  patience_poll {w w'} h := by
    split at h
    · next poll =>
      cases h
      exact Surroundings.patience_poll poll
    · cases h

instance [Transport σ] : Transport (Observed σ) where
  isReady w := Transport.isReady w.host
  isConnected w := Transport.isConnected w.host
  send report w :=
    { host := Transport.send report w.host, seen := w.seen ++ [(.report report, w.host)] }
  patience_send report w := Transport.patience_send report w.host

instance [StatusLight σ] : StatusLight (Observed σ) where
  setLight lit w :=
    { host := StatusLight.setLight lit w.host, seen := w.seen ++ [(.light lit, w.host)] }
  patience_setLight lit w := StatusLight.patience_setLight lit w.host

end Observed

/-- The true time in a world: it never goes back, and the clock counts it. -/
structure TrueTime (σ : Type) [Surroundings σ] [Transport σ] [StatusLight σ] where
  time : σ → Nat
  reads : ∀ s, Surroundings.now s = .ofNat (time s)
  poll_le : ∀ {s t : σ}, Surroundings.poll s = .ok () t → time s ≤ time t
  send_le : ∀ r s, time s ≤ time (Transport.send r s)
  setLight_le : ∀ lit s, time s ≤ time (StatusLight.setLight lit s)

namespace TrueTime

variable {σ : Type} [Surroundings σ] [Transport σ] [StatusLight σ] (clock : TrueTime σ)

theorem pollUntil_le {done : σ → Bool} {s t : σ} (waited : pollUntil done s = .ok () t) :
    clock.time s ≤ clock.time t :=
  le_of_pollUntil clock.poll_le waited

/-- A wait takes the time that it should, or longer. -/
theorem add_le_of_elapsed {s t : σ} {span : UInt32} (le : clock.time s ≤ clock.time t)
    (due : elapsed (Surroundings.now t) (Surroundings.now s) span = true) :
    clock.time s + span.toNat ≤ clock.time t := by
  obtain ⟨passed, same⟩ := Nat.exists_eq_add_of_le le
  rw [clock.reads, clock.reads, same, elapsed_ofNat_iff] at due
  have small := Nat.mod_le passed UInt32.size
  omega

theorem waitMs_le {ms : UInt32} {s t : σ} (waited : waitMs ms s = .ok () t) :
    clock.time s + ms.toNat ≤ clock.time t := by
  have wait : pollUntil (fun u => elapsed (Surroundings.now u) (Surroundings.now s) ms) s = .ok () t :=
    waited
  obtain ⟨-, due, -⟩ := pollUntil_ok (P := fun _ => True) (fun _ _ _ _ _ => trivial) trivial wait
  exact clock.add_le_of_elapsed (clock.pollUntil_le wait) due

end TrueTime

/-! ## What is known while time passes -/

variable {σ : Type} [Surroundings σ]

theorem Station.pollsInside_observed (e : Engine) (seen : List (Sighting × σ)) :
    PollsInside fun host : σ => (⟨e, ⟨host, seen⟩⟩ : Station (Observed σ)) := by
  intro host
  show Station.onHost Surroundings.poll (⟨e, ⟨host, seen⟩⟩ : Station (Observed σ)) = _
  simp only [Station.onHost, Surroundings.poll]
  cases Surroundings.poll host <;> rfl

/-- A wait for the host finds it in the same world, whatever was seen. -/
theorem Station.waitForHost_observed [Transport σ] (e : Engine) (host : σ) (seen : List (Sighting × σ)) :
    waitForHost (⟨e, ⟨host, seen⟩⟩ : Station (Observed σ)) =
      match waitForHost host with
      | .ok u t => .ok u ⟨e, ⟨t, seen⟩⟩
      | .error g t => .error g ⟨e, ⟨t, seen⟩⟩ :=
  (pollsInside_observed e seen).pollUntil (fun _ => rfl) host

variable [Transport σ] [StatusLight σ]

/-- The lights of a number of flashes. -/
def flashes : Nat → List Bool
  | 0 => []
  | count + 1 => true :: false :: flashes count

/-- The lights from the beginning until a host was found and told so. -/
def connectLights : List Bool :=
  false :: flashes connectFlashes

/-- How long these flashes take, in milliseconds. -/
def connectTime : Nat :=
  connectFlashes * (connectFlashOn.toNat + connectFlashOff.toNat)

namespace Station

/-- An engine at a host, before anything was seen of it. -/
def unseen (e : Engine) (host : σ) : Station (Observed σ) :=
  ⟨e, ⟨host, []⟩⟩

/-- Knowledge of an engine and of what was seen of it, which no wait changes. -/
def Known (K : Engine → List (Sighting × σ) → Prop) (s : Station (Observed σ)) : Prop :=
  K s.engine s.host.seen

/-- Such knowledge, at least `n` milliseconds after a world `c`. -/
structure Since (c : σ) (n : Nat) (K : Engine → List (Sighting × σ) → Prop)
    (s : Station (Observed σ)) : Prop where
  known : Known K s
  passed : ∀ clock : TrueTime σ, clock.time c + n ≤ clock.time s.host.host

/-- Whether these lights were switched, and nothing was typed. -/
def Lit (lights : List Bool) (_ : Engine) (seen : List (Sighting × σ)) : Prop :=
  seen.map Prod.fst = lights.map Sighting.light

/-- Whether the first of these lights were switched, and nothing was typed. -/
def LitFrom (lights : List Bool) (_ : Engine) (seen : List (Sighting × σ)) : Prop :=
  ∃ first, first <+: lights ∧ seen.map Prod.fst = first.map Sighting.light

/-- Whether all that was seen since the opening are reports, each at least `n` milliseconds after a
world `c`. -/
def Typed (c : σ) (n : Nat) (opening : List (Sighting × σ)) (_ : Engine)
    (seen : List (Sighting × σ)) : Prop :=
  ∃ typed, seen = opening ++ typed ∧ ∀ m ∈ typed,
    (∃ report, m.1 = .report report) ∧ ∀ clock : TrueTime σ, clock.time c + n ≤ clock.time m.2

/-- Whether an engine is not running, and nothing was seen since the opening. -/
def Still (opening : List (Sighting × σ)) (e : Engine) (seen : List (Sighting × σ)) : Prop :=
  e.isRunning = false ∧ seen = opening

variable {c : σ} {n : Nat} {K : Engine → List (Sighting × σ) → Prop} {R : Station (Observed σ) → Prop}

/-! ## Waits -/

/-- A routine that waits as one of the host's world does keeps what is known. -/
theorem takes_waiting {inner : Routine σ Unit} {outer : Routine (Station (Observed σ)) Unit} (span : Nat)
    (same : ∀ e host seen, outer ⟨e, ⟨host, seen⟩⟩ =
      match inner host with
      | .ok u t => .ok u ⟨e, ⟨t, seen⟩⟩
      | .error e' t => .error e' ⟨e, ⟨t, seen⟩⟩)
    (takes : ∀ (clock : TrueTime σ) {s t : σ}, inner s = .ok () t →
      clock.time s + span ≤ clock.time t) :
    Routine.Takes (Since c n K) outer (fun _ => Since c (n + span) K) (Known K) := by
  rintro ⟨e, host, seen⟩ ⟨known, passed⟩
  rw [same]
  cases course : inner host with
  | ok u t =>
    refine ⟨known, fun clock => ?_⟩
    have before : clock.time c + n ≤ clock.time host := passed clock
    have wait := takes clock course
    show clock.time c + (n + span) ≤ clock.time t
    omega
  | error e' t => exact known

theorem takes_poll :
    Routine.Takes (Since c n K) Surroundings.poll (fun _ => Since c n K) (Known K) :=
  takes_waiting 0 (fun e host seen => pollsInside_observed e seen host)
    fun clock _ _ back => clock.poll_le back

theorem takes_pollUntil_isReady :
    Routine.Takes (Since c n K) (pollUntil Transport.isReady) (fun _ => Since c n K) (Known K) :=
  takes_waiting 0 (fun e host seen => (pollsInside_observed e seen).pollUntil (fun _ => rfl) host)
    fun clock _ _ back => clock.pollUntil_le back

theorem takes_waitMs (ms : UInt32) :
    Routine.Takes (Since c n K) (waitMs ms) (fun _ => Since c (n + ms.toNat) K) (Known K) := by
  refine takes_waiting _ ?_ fun clock _ _ back => clock.waitMs_le back
  intro e host seen
  exact (pollsInside_observed e seen).pollUntil (fun _ => rfl) host

/-! ## From the host to the script -/

theorem takes_setLight (lit : Bool) (lights : List Bool) :
    Routine.Takes (Since c n (Lit lights)) (setLight lit) (fun _ => Since c n (Lit (lights ++ [lit]))) R := by
  refine Routine.takes_modify fun s ⟨known, passed⟩ => ⟨?_, fun clock => ?_⟩
  · show (s.host.seen ++ [(Sighting.light lit, s.host.host)]).map Prod.fst =
      (lights ++ [lit]).map Sighting.light
    rw [List.map_append, List.map_append, known]
    rfl
  · exact Nat.le_trans (passed clock) (clock.setLight_le lit s.host.host)

/-- Flashes take their time, and show up to when they are given up. -/
theorem takes_blink (on off : UInt32) (count : Nat) (lights : List Bool) :
    Routine.Takes (Since c n (Lit lights)) (blink on off count)
      (fun _ => Since c (n + count * (on.toNat + off.toNat)) (Lit (lights ++ flashes count)))
      (Known (LitFrom (lights ++ flashes count))) := by
  induction count generalizing n lights with
  | zero =>
    refine Routine.takes_pure () fun s before => ?_
    rw [Nat.zero_mul, flashes, List.append_nil]
    exact before
  | succ count ih =>
    have whole : lights ++ [true] ++ [false] ++ flashes count = lights ++ flashes (count + 1) := by
      simp only [List.append_assoc]
      rfl
    have time : n + on.toNat + off.toNat + count * (on.toNat + off.toNat) =
        n + (count + 1) * (on.toNat + off.toNat) := by
      rw [Nat.succ_mul]
      omega
    have rest := ih (n := n + on.toNat + off.toNat) (lights ++ [true] ++ [false])
    rw [whole, time] at rest
    have off' : lights ++ [true] ++ [false] <+: lights ++ flashes (count + 1) :=
      whole ▸ List.prefix_append _ _
    have on' : lights ++ [true] <+: lights ++ flashes (count + 1) :=
      (List.prefix_append _ _).trans off'
    refine (takes_setLight true lights).bind fun _ => ?_
    refine ((takes_waitMs on).lost fun _ lit => ⟨_, on', lit⟩).bind fun _ => ?_
    refine (takes_setLight false _).bind fun _ => ?_
    exact ((takes_waitMs off).lost fun _ lit => ⟨_, off', lit⟩).bind fun _ => rest

variable {μ : Type} [Medium μ]

/-- Whether the lights of the beginning were switched, and the engine runs if there is a script. -/
def Started (store : Store μ) (e : Engine) (seen : List (Sighting × σ)) : Prop :=
  Lit connectLights e seen ∧ e.isRunning = store.hasScript

/-- Without a host only the light is switched off. -/
theorem startTyping_of_no_host {host t : σ} {g : GaveUp}
    (missing : waitForHost (StatusLight.setLight false host) = .error g t) (store : Store μ) (e : Engine) :
    startTyping store (unseen e host) = .error g ⟨e, ⟨t, [(.light false, host)]⟩⟩ := by
  have switched : setLight false (unseen e host) =
      .ok () ⟨e, ⟨StatusLight.setLight false host, [(.light false, host)]⟩⟩ := rfl
  have waited := waitForHost_observed e (StatusLight.setLight false host) [(.light false, host)]
  rw [missing] at waited
  simp only [startTyping, bind, EStateM.bind, switched, waited]

theorem takes_start (store : Store μ) :
    Routine.Takes (Since c n (Lit connectLights))
      (do
        modify fun s : Station (Observed σ) => { s with engine := s.engine.start store }
        return (← get).engine.state : Routine (Station (Observed σ)) RunState)
      (fun _ => Since c n (Started store)) R := by
  rintro s ⟨known, passed⟩
  refine ⟨⟨known, ?_⟩, passed⟩
  show (if store.hasScript then RunState.running else .idle).isRunning = store.hasScript
  cases store.hasScript <;> rfl

/-- With a host the light flashes and the delay passes before the engine is started. -/
theorem takes_startTyping {host : σ} (found : waitForHost (StatusLight.setLight false host) = .ok () c)
    (store : Store μ) (e : Engine) :
    Routine.Takes (· = unseen e host) (startTyping store)
      (fun _ => Since c (connectTime + store.initialDelay.toNat) (Started store))
      (Known (LitFrom connectLights)) := by
  have switched : Routine.Takes (R := Known (LitFrom connectLights)) (· = unseen e host)
      (setLight false : Routine (Station (Observed σ)) Unit)
      (fun _ => (· = ⟨e, ⟨StatusLight.setLight false host, [(.light false, host)]⟩⟩)) :=
    Routine.takes_modify fun s begun => by rw [begun]; rfl
  have waited : Routine.Takes (R := Known (LitFrom connectLights))
      (· = ⟨e, ⟨StatusLight.setLight false host, [(.light false, host)]⟩⟩)
      (waitForHost : Routine (Station (Observed σ)) Unit) (fun _ => Since c 0 (Lit [false])) := by
    rintro s rfl
    rw [waitForHost_observed, found]
    exact ⟨rfl, fun _ => Nat.le_refl _⟩
  have blinked := takes_blink (c := c) (n := 0) connectFlashOn connectFlashOff connectFlashes [false]
  rw [Nat.zero_add] at blinked
  have all : ∀ s : Station (Observed σ), Known (Lit connectLights) s → Known (LitFrom connectLights) s :=
    fun s lit => ⟨connectLights, List.prefix_refl _, lit⟩
  have delayed := (takes_waitMs (c := c) (n := connectTime) store.initialDelay).lost all
  refine switched.bind fun _ => waited.bind fun _ => blinked.bind fun _ => ?_
  split
  · exact delayed.bind fun _ => takes_start store
  · next no =>
    have zero : store.initialDelay.toNat = 0 := by
      rw [UInt32.lt_iff_toNat_lt] at no
      simpa using no
    rw [zero]
    exact takes_start store

/-! ## Typing -/

variable {opening : List (Sighting × σ)}

theorem takes_act (a : Action) :
    Routine.Takes (Since c n (Typed c n opening)) (act a) (fun _ => Since c n (Typed c n opening))
      (Known (Typed c n opening)) := by
  cases a with
  | send =>
    refine takes_pollUntil_isReady.bind fun _ => Routine.takes_modify fun s ⟨known, passed⟩ => ?_
    obtain ⟨typed, seen, late⟩ := known
    refine ⟨⟨typed ++ [(.report s.engine.heldReport, s.host.host)], ?_, ?_⟩, fun clock => ?_⟩
    · show s.host.seen ++ [(.report s.engine.heldReport, s.host.host)] = _
      rw [seen, List.append_assoc]
    · intro m mem
      rcases List.mem_append.mp mem with before | last
      · exact late m before
      · rw [List.mem_singleton.mp last]
        exact ⟨⟨_, rfl⟩, passed⟩
    · exact Nat.le_trans (passed clock) (clock.send_le _ s.host.host)
  | poll => exact takes_poll
  | _ => exact Routine.takes_modify fun s ⟨known, passed⟩ => ⟨known, passed⟩

theorem takes_perform (as : List Action) :
    Routine.Takes (Since c n (Typed c n opening)) (perform as) (fun _ => Since c n (Typed c n opening))
      (Known (Typed c n opening)) := by
  induction as with
  | nil => exact Routine.takes_pure () fun _ before => before
  | cons a as ih => exact (takes_act a).bind fun _ => ih

/-- Wherever typing is given up, only reports were handed over, all of them late enough. -/
theorem takes_typing (layout : Layout) (store : Store μ) :
    Routine.Takes (Since c n (Typed c n opening)) (Routine.loop (typeOnce layout store) ())
      (fun _ => Known (Typed c n opening)) (Known (Typed c n opening)) := by
  refine Routine.takes_loop (fun _ => Since.known) (fun _ => ?_) ()
  refine takes_poll.bind fun _ => ?_
  refine Routine.Takes.bind (fun s before => takes_perform _ s before) fun _ => ?_
  exact Routine.takes_pure _ fun _ after => after

/-- An engine that is not running types nothing. -/
theorem takes_idling (layout : Layout) (store : Store μ) :
    Routine.Takes (Since c n (Still opening)) (Routine.loop (typeOnce layout store) ())
      (fun _ => Known (Still opening)) (Known (Still opening)) := by
  refine Routine.takes_loop (fun _ => Since.known) (fun _ => ?_) ()
  refine takes_poll.bind fun _ => ?_
  have idle : Routine.Takes (Since c n (Still opening)) (tick layout store) (fun _ => Since c n (Still opening))
      (Known (Still opening)) := by
    intro s before
    have rests : tick layout store s = .ok () s := by
      have nothing := Engine.actions_of_not_running before.known.1 layout store.scriptByte (Surroundings.now s)
      show perform (s.engine.actions layout store.scriptByte (Surroundings.now s)) s = _
      rw [nothing]
      rfl
    rw [rests]
    exact before
  exact idle.bind fun _ => Routine.takes_pure _ fun _ after => after

variable {layout : Layout} {store : Store μ} {s : Station (Observed σ)}

/-- From the start on only reports are seen, late enough, and none without a script. -/
theorem typed_of_started (since : Since c n (Started store) s) :
    ∃ typed : List (Sighting × σ),
      (Routine.worldAfter (Routine.loop (typeOnce layout store) ()) s).host.seen = s.host.seen ++ typed ∧
      (∀ m ∈ typed, (∃ report, m.1 = .report report) ∧
        ∀ clock : TrueTime σ, clock.time c + n ≤ clock.time m.2) ∧
      (typed ≠ [] → store.hasScript = true) := by
  obtain ⟨⟨-, runs⟩, passed⟩ := since
  obtain ⟨typed, seen, late⟩ := (takes_typing layout store).worldAfter (s := s)
    ⟨⟨[], (List.append_nil _).symm, nofun⟩, passed⟩
  refine ⟨typed, seen, late, fun any => ?_⟩
  cases script : store.hasScript with
  | true => rfl
  | false =>
    obtain ⟨-, same⟩ := (takes_idling layout store).worldAfter (s := s) ⟨⟨runs.trans script, rfl⟩, passed⟩
    rw [seen] at same
    exact absurd (List.append_right_eq_self.mp same) any

theorem worldAfter_of_lost {g : GaveUp} {t : Station (Observed σ)}
    (lost : startTyping store s = .error g t) : Routine.worldAfter (runKeyboard layout store) s = t := by
  simp only [Routine.worldAfter, runKeyboard, bind, EStateM.bind, lost]

theorem worldAfter_of_started {state : RunState} {t : Station (Observed σ)}
    (started : startTyping store s = .ok state t) :
    Routine.worldAfter (runKeyboard layout store) s =
      Routine.worldAfter (Routine.loop (typeOnce layout store) ()) t := by
  simp only [Routine.worldAfter, runKeyboard, bind, EStateM.bind, started]

/-- Whatever host, clock, store and engine there are, and wherever the keyboard's life is given up: the
light is switched off, on, off, on and off, the last of it before the first report, and after that only
reports are seen. If there are any, then there is a script, and each was handed over when the time of the
flashes and the initial delay had passed since the host was found. -/
theorem types_when_ready (layout : Layout) (store : Store μ) (e : Engine) (host : σ) :
    ∃ opening typed : List (Sighting × σ),
      (Routine.worldAfter (runKeyboard layout store) (unseen e host)).host.seen = opening ++ typed ∧
      (∃ lights, lights <+: [false, true, false, true, false] ∧
        opening.map Prod.fst = lights.map Sighting.light) ∧
      (∀ state s, startTyping store (unseen e host) = .ok state s →
        opening.map Prod.fst = [false, true, false, true, false].map Sighting.light) ∧
      (∀ m ∈ typed, ∃ report, m.1 = .report report) ∧
      (typed ≠ [] →
        store.hasScript = true ∧
        opening.map Prod.fst = [false, true, false, true, false].map Sighting.light ∧
        ∃ c, waitForHost (StatusLight.setLight false host) = .ok () c ∧
          Transport.isConnected c = true ∧
          ∀ clock : TrueTime σ, ∀ m ∈ typed,
            clock.time c + 2 * (80 + 80) + store.initialDelay.toNat ≤ clock.time m.2) := by
  cases found : waitForHost (StatusLight.setLight false host) with
  | error g t =>
    have lost := startTyping_of_no_host found store e
    refine ⟨[(.light false, host)], [], ?_, ⟨[false], ⟨_, rfl⟩, rfl⟩, ?_, nofun,
      fun any => absurd rfl any⟩
    · rw [worldAfter_of_lost lost]
      rfl
    · intro state s back
      rw [lost] at back
      cases back
  | ok u c =>
    have course := takes_startTyping found store e (unseen e host) rfl
    cases begun : startTyping store (unseen e host) with
    | error g t =>
      rw [begun] at course
      refine ⟨t.host.seen, [], ?_, course, nofun, nofun, fun any => absurd rfl any⟩
      rw [worldAfter_of_lost begun, List.append_nil]
    | ok state s =>
      rw [begun] at course
      obtain ⟨typed, seen, late, script⟩ := typed_of_started course
      have lit : Lit connectLights s.engine s.host.seen := course.known.1
      have connected : Transport.isConnected c = true :=
        (pollUntil_ok (P := fun _ => True) (fun _ _ _ _ _ => trivial) trivial found).2.1
      rw [worldAfter_of_started begun, seen]
      refine ⟨s.host.seen, typed, rfl, ⟨connectLights, List.prefix_refl _, lit⟩, fun _ _ _ => lit,
        fun m mem => (late m mem).1, fun any => ⟨script any, lit, c, rfl, connected, ?_⟩⟩
      intro clock m mem
      rw [Nat.add_assoc]
      exact (late m mem).2 clock

end Station

/-! ## The bench -/

/-- The true time on the bench, where it passes with the polls. -/
def Bench.trueTime : TrueTime Bench where
  time b := b.polls * b.msPerPoll.toNat + (b.now - .ofNat (b.polls * b.msPerPoll.toNat)).toNat
  reads b := by
    rw [UInt32.ofNat_add, UInt32.ofNat_toNat, UInt32.add_comm, UInt32.sub_add_cancel]
    rfl
  poll_le {b t} back := by
    simp only [Surroundings.poll] at back
    split at back
    · cases back
      have same : b.now + b.msPerPoll - .ofNat ((b.polls + 1) * b.msPerPoll.toNat) =
          b.now - .ofNat (b.polls * b.msPerPoll.toNat) := by
        rw [Nat.succ_mul, UInt32.ofNat_add, UInt32.ofNat_toNat]
        grind
      show _ ≤ (b.polls + 1) * b.msPerPoll.toNat + _
      simp only [polled, same]
      rw [Nat.succ_mul]
      omega
    · cases back
  send_le _ _ := Nat.le_refl _
  setLight_le _ _ := Nat.le_refl _

/-- A script that taps a key, half a second after the host was found. -/
def Store.delayedTap : Store Memory :=
  let bytes := Instr.encode (.tap 0x04)
  .commit (.writeBlock (.mount {}) scriptStart bytes) { Header.ofScript bytes with delay := 5 }

/-- A bench whose clock soon comes round and whose host is there after three polls. -/
def Bench.comingRound : Bench :=
  { now := 0xFFFFFF00, msPerPoll := 40, connectAfter := 3, budget := 30 }

theorem Station.types_when_ready_comingRound :
    ∃ opening typed : List (Sighting × Bench),
      (Routine.worldAfter (runKeyboard .us Store.delayedTap) (unseen {} Bench.comingRound)).host.seen =
        opening ++ typed ∧
      typed ≠ [] ∧
      ∃ c, waitForHost (StatusLight.setLight false Bench.comingRound) = .ok () c ∧
        ∀ m ∈ typed, Bench.trueTime.time c + 2 * (80 + 80) + 500 ≤ Bench.trueTime.time m.2 := by
  obtain ⟨opening, typed, seen, ⟨lights, upTo, lit⟩, -, -, late⟩ :=
    Station.types_when_ready .us Store.delayedTap {} Bench.comingRound
  have count : (Routine.worldAfter (runKeyboard .us Store.delayedTap)
      (unseen {} Bench.comingRound)).host.seen.length = 8 := by
    decide +kernel
  have any : typed ≠ [] := by
    rintro rfl
    have short := upTo.length_le
    have same := congrArg List.length lit
    rw [seen, List.append_nil] at count
    simp only [List.length_map, List.length_cons, List.length_nil] at short same
    omega
  obtain ⟨-, -, c, found, -, passed⟩ := late any
  have delay : Store.delayedTap.initialDelay.toNat = 500 := by decide +kernel
  rw [delay] at passed
  exact ⟨opening, typed, seen, any, c, found, passed Bench.trueTime⟩

end Autotype
