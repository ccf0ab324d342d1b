import Autotype.Proofs.Readiness
import Mathlib.Algebra.Order.Floor.Div

/-!
# How many polls a wait takes

Where each poll takes the same time, a wait for a span of time takes the number of polls in which that span
passes, rounded up (`waitMs_does`): the last poll goes past the span by less than it takes itself, so the
clock cannot have come round. Flashes are made of such waits, and so is all that is done before a script is
started. What a routine does to a world, each poll and each light, is noted there one after the other
(`Traced`), and compared with what should be done (`Does`).
-/

namespace Autotype

variable {σ τ : Type} [Surroundings σ] [StatusLight σ] [Surroundings τ] [StatusLight τ]

/-! ## What is done to a world -/

/-- What a routine does to a world while it waits. -/
inductive Deed where
  | poll
  | light (lit : Bool)
  deriving DecidableEq

def Deed.run : Deed → Routine σ Unit
  | .poll => Surroundings.poll
  | .light lit => setLight lit

/-- Does these things, one after the other. -/
def follow : List Deed → Routine σ Unit
  | [] => pure ()
  | deed :: deeds => do
    deed.run
    follow deeds

/-- As many polls. -/
def waiting (polls : Nat) : List Deed :=
  .replicate polls .poll

/-- Flashes, and the polls while the light is on and while it is off. -/
def flashing (on off : Nat) : Nat → List Deed
  | 0 => []
  | count + 1 => .light true :: (waiting on ++ .light false :: (waiting off ++ flashing on off count))

def Deed.light? : Deed → Option Bool
  | .poll => none
  | .light lit => some lit

/-- The lights among what was done. -/
def lights (deeds : List Deed) : List Bool :=
  deeds.filterMap Deed.light?

@[simp] theorem count_light (lit : Bool) (deeds : List Deed) :
    (Deed.light lit :: deeds).count .poll = deeds.count .poll :=
  List.count_cons_of_ne Deed.noConfusion

@[simp] theorem lights_light (lit : Bool) (deeds : List Deed) : lights (.light lit :: deeds) = lit :: lights deeds :=
  rfl

@[simp] theorem count_waiting (polls : Nat) : (waiting polls).count .poll = polls :=
  List.count_replicate_self

theorem lights_append (first rest : List Deed) : lights (first ++ rest) = lights first ++ lights rest :=
  List.filterMap_append

@[simp] theorem lights_waiting (polls : Nat) : lights (waiting polls) = [] :=
  List.filterMap_replicate_of_none rfl

@[simp] theorem count_flashing (on off count : Nat) :
    (flashing on off count).count .poll = count * (on + off) := by
  induction count with
  | zero => simp [flashing]
  | succ count ih =>
    rw [flashing, count_light, List.count_append, count_light, List.count_append, ih, count_waiting,
      count_waiting, Nat.succ_mul]
    omega

@[simp] theorem lights_flashing (on off count : Nat) : lights (flashing on off count) = flashes count := by
  induction count with
  | zero => rfl
  | succ count ih =>
    rw [flashing, lights_light, lights_append, lights_light, lights_append, lights_waiting, lights_waiting, ih]
    rfl

theorem getLast?_flashes {count : Nat} (some : 0 < count) : (flashes count).getLast? = .some false := by
  induction count with
  | zero => cases some
  | succ count ih =>
    cases count with
    | zero => rfl
    | succ count => exact ih (Nat.succ_pos _)

theorem follow_cons (deed : Deed) (deeds : List Deed) {s t : σ} (run : deed.run s = .ok () t) :
    follow (deed :: deeds) s = follow deeds t := by
  simp only [follow, bind, EStateM.bind, run]

theorem of_follow_cons {deed : Deed} {deeds : List Deed} {s t : σ} (course : follow (deed :: deeds) s = .ok () t) :
    ∃ u, deed.run s = .ok () u ∧ follow deeds u = .ok () t := by
  simp only [follow, bind, EStateM.bind] at course
  cases run : deed.run s with
  | ok x u =>
    rw [run] at course
    exact ⟨u, rfl, course⟩
  | error e u =>
    rw [run] at course
    cases course

theorem follow_append {first rest : List Deed} {s t : σ} (course : follow first s = .ok () t) :
    follow (first ++ rest) s = follow rest t := by
  induction first generalizing s with
  | nil =>
    cases course
    rfl
  | cons deed deeds ih =>
    obtain ⟨u, run, later⟩ := of_follow_cons course
    exact (follow_cons deed _ run).trans (ih later)

/-- Whether a routine comes back and has done just these things. -/
def Does (routine : Routine σ Unit) (deeds : List Deed) (s : σ) : Prop :=
  ∃ t, routine s = .ok () t ∧ follow deeds s = .ok () t

namespace Does

variable {r r' : Routine σ Unit} {deeds deeds' : List Deed} {s : σ}

theorem bind (first : Does r deeds s) (rest : ∀ t, follow deeds s = .ok () t → Does r' deeds' t) :
    Does (do r; r') (deeds ++ deeds') s := by
  obtain ⟨t, back, course⟩ := first
  obtain ⟨u, back', course'⟩ := rest t course
  refine ⟨u, ?_, (follow_append course).trans course'⟩
  simp only [Bind.bind, EStateM.bind, back]
  exact back'

theorem setLight (lit : Bool) : Does (Autotype.setLight lit) [.light lit] s :=
  ⟨_, rfl, rfl⟩

end Does

/-! ## Time and conditions -/

/-- In how many polls a span of time passes, if each of them takes `step` milliseconds. -/
def pollsFor (step : Nat) (span : UInt32) : Nat :=
  span.toNat ⌈/⌉ step

theorem pollsFor_zero (step : Nat) : pollsFor step 0 = 0 :=
  zero_ceilDiv step

theorem pollsFor_le_iff {step : Nat} (ticks : 0 < step) (span : UInt32) (polls : Nat) :
    pollsFor step span ≤ polls ↔ span.toNat ≤ polls * step := by
  rw [pollsFor, ceilDiv_le_iff_le_mul ticks, Nat.mul_comm]

/-- The last poll goes past the span by less than a poll. -/
theorem pollsFor_mul_lt {step : Nat} (ticks : 0 < step) (span : UInt32) :
    pollsFor step span * step < span.toNat + step := by
  have last : pollsFor step span * step ≤ span.toNat + step - 1 := Nat.div_mul_le_self _ _
  omega

/-- Whether the next polls come back and take `step` milliseconds each, whatever is done with the light
between them. -/
def KeepsPace (step polls : Nat) (s : σ) : Prop :=
  ∀ deeds t, follow deeds s = .ok () t → deeds.count .poll < polls →
    ∃ u, Surroundings.poll t = .ok () u ∧ Surroundings.now u = Surroundings.now t + .ofNat step

/-- Whether a condition holds after so many polls, and not before. -/
def ComesAfter (done : σ → Bool) (polls : Nat) (s : σ) : Prop :=
  ∀ n ≤ polls, ∀ t, follow (waiting n) s = .ok () t → (done t = true ↔ n = polls)

namespace KeepsPace

variable {step polls rest : Nat} {deeds : List Deed} {s t : σ}

theorem after (pace : KeepsPace step polls s) (course : follow deeds s = .ok () t)
    (left : deeds.count .poll + rest ≤ polls) : KeepsPace step rest t := by
  intro more u course' few
  refine pace (deeds ++ more) u ((follow_append course).trans course') ?_
  rw [List.count_append]
  omega

theorem mono (pace : KeepsPace step polls s) (fewer : rest ≤ polls) : KeepsPace step rest s :=
  pace.after (show follow [] s = .ok () s from rfl) (by simpa using fewer)

theorem poll (pace : KeepsPace step (polls + 1) s) :
    ∃ t, Surroundings.poll s = .ok () t ∧ Surroundings.now t = Surroundings.now s + .ofNat step ∧
      KeepsPace step polls t := by
  obtain ⟨t, back, now⟩ := pace [] s rfl (Nat.succ_pos polls)
  have course : follow [.poll] s = .ok () t := follow_cons .poll [] back
  refine ⟨t, back, now, pace.after course ?_⟩
  rw [List.count_singleton_self]
  omega

/-- What the clock reads after polls. -/
theorem now_follow (pace : KeepsPace step polls s) (course : follow (waiting polls) s = .ok () t) :
    Surroundings.now t = Surroundings.now s + .ofNat (polls * step) := by
  induction polls generalizing s with
  | zero =>
    cases course
    rw [Nat.zero_mul]
    exact (UInt32.add_zero _).symm
  | succ polls ih =>
    obtain ⟨u, back, now, pace'⟩ := pace.poll
    have course' : follow (waiting polls) u = .ok () t := (follow_cons .poll _ back).symm.trans course
    rw [ih pace' course', now, UInt32.add_assoc, ← UInt32.ofNat_add, Nat.succ_mul, Nat.add_comm step]

/-- A span of time has passed when the polls take as long, rounded up. At the last of them the clock has not
come round. -/
theorem comesAfter_elapsed {ms : UInt32} (ticks : 0 < step) (fits : ms.toNat + step ≤ UInt32.size)
    (pace : KeepsPace step (pollsFor step ms) s) :
    ComesAfter (fun t => elapsed (Surroundings.now t) (Surroundings.now s) ms) (pollsFor step ms) s := by
  intro n most t course
  have short : n * step < UInt32.size := by
    calc n * step ≤ pollsFor step ms * step := Nat.mul_le_mul_right step most
      _ < ms.toNat + step := pollsFor_mul_lt ticks ms
      _ ≤ UInt32.size := fits
  have readings : elapsed (Surroundings.now t) (Surroundings.now s) ms = true ↔ ms.toNat ≤ n * step := by
    have span := elapsed_ofNat_iff (Surroundings.now s).toNat (n * step) ms
    rwa [UInt32.ofNat_add, UInt32.ofNat_toNat, ← (pace.mono most).now_follow course,
      Nat.mod_eq_of_lt short] at span
  rw [readings, ← pollsFor_le_iff ticks]
  omega

end KeepsPace

/-! ## Waits -/

section Waits

variable {step polls : Nat} {s : σ}

/-- A wait for a condition takes as many polls as it takes for the condition to come. -/
theorem pollUntil_does {done : σ → Bool} (pace : KeepsPace step polls s) (after : ComesAfter done polls s) :
    Does (pollUntil done) (waiting polls) s := by
  induction polls generalizing s with
  | zero =>
    have holds : done s = true := (after 0 (Nat.le_refl 0) s rfl).mpr rfl
    refine ⟨s, ?_, rfl⟩
    rw [pollUntil_eq, if_pos holds]
  | succ polls ih =>
    have fails : ¬done s = true := fun holds =>
      absurd ((after 0 (Nat.zero_le _) s rfl).mp holds) (Nat.succ_ne_zero polls).symm
    obtain ⟨u, back, -, pace'⟩ := pace.poll
    have after' : ComesAfter done polls u := by
      intro n most t course
      rw [after (n + 1) (Nat.succ_le_succ most) t ((follow_cons .poll _ back).trans course)]
      exact Nat.succ_inj
    obtain ⟨t, waited, course⟩ := ih pace' after'
    refine ⟨t, ?_, (follow_cons .poll _ back).trans course⟩
    rw [pollUntil_eq, if_neg fails, back]
    exact waited

theorem waitMs_does {ms : UInt32} (ticks : 0 < step) (fits : ms.toNat + step ≤ UInt32.size)
    (pace : KeepsPace step (pollsFor step ms) s) : Does (waitMs ms) (waiting (pollsFor step ms)) s :=
  pollUntil_does pace (pace.comesAfter_elapsed ticks fits)

theorem blink_does {on off : UInt32} {count : Nat} (ticks : 0 < step) (fitsOn : on.toNat + step ≤ UInt32.size)
    (fitsOff : off.toNat + step ≤ UInt32.size)
    (pace : KeepsPace step (count * (pollsFor step on + pollsFor step off)) s) :
    Does (blink on off count) (flashing (pollsFor step on) (pollsFor step off) count) s := by
  induction count generalizing s with
  | zero => exact ⟨s, rfl, rfl⟩
  | succ count ih =>
    rw [Nat.succ_mul] at pace
    refine (Does.setLight true).bind fun t course => ?_
    have pace := pace.after course (Nat.le_of_eq (Nat.zero_add _))
    refine (waitMs_does ticks fitsOn (pace.mono (by omega))).bind fun t course => ?_
    have pace : KeepsPace step (count * (pollsFor step on + pollsFor step off) + pollsFor step off) t :=
      pace.after course (by rw [count_waiting]; omega)
    refine (Does.setLight false).bind fun t course => ?_
    have pace := pace.after course (Nat.le_of_eq (Nat.zero_add _))
    refine (waitMs_does ticks fitsOff (pace.mono (by omega))).bind fun t course => ?_
    exact ih (pace.after course (by rw [count_waiting]; omega))

end Waits

/-! ## Before the script -/

namespace Station

variable {μ : Type}

/-- All that is done before a script is started. -/
def getReady [Transport σ] (store : Store μ) : Routine (Station σ) Unit := do
  setLight false
  waitForHost
  blink connectFlashOn connectFlashOff connectFlashes
  if 0 < store.initialDelay then waitMs store.initialDelay

theorem startTyping_of_ready [Transport σ] [Medium μ] {store : Store μ} {s t : Station σ}
    (ready : getReady store s = .ok () t) :
    startTyping store s =
      .ok (t.engine.start store).state { t with engine := t.engine.start store } := by
  have split : startTyping (σ := σ) store = do
      getReady store
      modify fun s => { s with engine := s.engine.start store }
      return (← get).engine.state := by
    by_cases delay : 0 < store.initialDelay <;> simp [startTyping, getReady, delay]
  rw [split]
  simp only [bind, EStateM.bind, ready]
  rfl

/-- What is done before a script is started, if each poll takes `step` milliseconds and the host is there
after some polls. -/
def preparing (step host : Nat) (delay : UInt32) : List Deed :=
  .light false :: (waiting host ++
    (flashing (pollsFor step connectFlashOn) (pollsFor step connectFlashOff) connectFlashes ++
      waiting (pollsFor step delay)))

theorem count_preparing (step host : Nat) (delay : UInt32) :
    (preparing step host delay).count .poll = host + 4 * pollsFor step 80 + pollsFor step delay := by
  have flash : (flashing (pollsFor step connectFlashOn) (pollsFor step connectFlashOff)
      connectFlashes).count .poll = 2 * (pollsFor step 80 + pollsFor step 80) :=
    count_flashing _ _ _
  rw [preparing, count_light, List.count_append, List.count_append, count_waiting, count_waiting, flash]
  omega

theorem lights_preparing (step host : Nat) (delay : UInt32) :
    lights (preparing step host delay) = connectLights := by
  rw [preparing, lights_light, lights_append, lights_append, lights_waiting, lights_waiting, lights_flashing,
    List.nil_append, List.append_nil]
  rfl

theorem getReady_does [Transport σ] {store : Store μ} {step host : Nat} {s : Station σ} (ticks : 0 < step)
    (fitsFlash : 80 + step ≤ UInt32.size) (fitsDelay : store.initialDelay.toNat + step ≤ UInt32.size)
    (found : ComesAfter Transport.isConnected host (StatusLight.setLight false s))
    (pace : KeepsPace step (host + 4 * pollsFor step 80 + pollsFor step store.initialDelay) s) :
    Does (getReady store) (preparing step host store.initialDelay) s := by
  refine (Does.setLight false).bind fun t course => ?_
  have switched : StatusLight.setLight false s = t := EStateM.Result.ok.inj course |>.2
  rw [switched] at found
  have pace := pace.after course (Nat.le_of_eq (Nat.zero_add _))
  refine (pollUntil_does (pace.mono (by omega)) found).bind fun t course => ?_
  have pace : KeepsPace step (4 * pollsFor step 80 + pollsFor step store.initialDelay) t :=
    pace.after course (by rw [count_waiting]; omega)
  have flash : connectFlashes * (pollsFor step connectFlashOn + pollsFor step connectFlashOff) =
      4 * pollsFor step 80 := by
    show 2 * (pollsFor step 80 + pollsFor step 80) = _
    omega
  have fitsOn : connectFlashOn.toNat + step ≤ UInt32.size := fitsFlash
  have fitsOff : connectFlashOff.toNat + step ≤ UInt32.size := fitsFlash
  refine (blink_does ticks fitsOn fitsOff (pace.mono (by omega))).bind fun t course => ?_
  have pace : KeepsPace step (pollsFor step store.initialDelay) t :=
    pace.after course (by rw [count_flashing, flash])
  split
  · exact waitMs_does ticks fitsDelay pace
  · next no =>
    have zero : store.initialDelay = 0 := by simpa using no
    rw [zero, pollsFor_zero]
    exact ⟨t, rfl, rfl⟩

end Station

/-! ## Worlds in which it is noted what is done -/

/-- Whether time, polls and light of a world are those of a world in it. -/
structure Wraps (inner : τ → σ) : Prop where
  now : ∀ s, Surroundings.now (inner s) = Surroundings.now s
  poll : ∀ s, Surroundings.poll (inner s) =
    match Surroundings.poll s with
    | .ok u t => .ok u (inner t)
    | .error e t => .error e (inner t)
  setLight : ∀ lit s, StatusLight.setLight lit (inner s) = inner (StatusLight.setLight lit s)

namespace Wraps

variable {inner : τ → σ} {deeds : List Deed} {step polls : Nat} {s t : τ}

theorem follow (wraps : Wraps inner) (course : follow deeds s = .ok () t) :
    Autotype.follow deeds (inner s) = .ok () (inner t) := by
  induction deeds generalizing s with
  | nil =>
    cases course
    rfl
  | cons deed deeds ih =>
    obtain ⟨u, run, later⟩ := of_follow_cons course
    have inside : deed.run (inner s) = .ok () (inner u) := by
      cases deed with
      | poll =>
        have back : Surroundings.poll s = .ok () u := run
        show Surroundings.poll (inner s) = _
        rw [wraps.poll, back]
      | light lit =>
        cases run
        exact congrArg (EStateM.Result.ok ()) (wraps.setLight lit s)
    exact (follow_cons deed _ inside).trans (ih later)

theorem keepsPace (wraps : Wraps inner) (pace : KeepsPace step polls (inner s)) : KeepsPace step polls s := by
  intro deeds t course few
  obtain ⟨u, back, now⟩ := pace deeds _ (wraps.follow course) few
  rw [wraps.poll] at back
  cases poll : Surroundings.poll t with
  | ok x v =>
    rw [poll] at back
    cases back
    refine ⟨v, rfl, ?_⟩
    rw [← wraps.now, now, wraps.now]
  | error e v =>
    rw [poll] at back
    cases back

theorem comesAfter {done : σ → Bool} (wraps : Wraps inner) (after : ComesAfter done polls (inner s)) :
    ComesAfter (fun t => done (inner t)) polls s :=
  fun n most _ course => after n most _ (wraps.follow course)

end Wraps

/-- A world with a note of what was done to it. -/
structure Traced (σ : Type) where
  host : σ
  deeds : List Deed := []

namespace Traced

instance : Surroundings (Traced σ) where
  now w := Surroundings.now w.host
  poll w :=
    match Surroundings.poll w.host with
    | .ok u host => .ok u { host := host, deeds := w.deeds ++ [.poll] }
    | .error e host => .error e { w with host := host }
  patience w := Surroundings.patience w.host
  patience_poll {w w'} h := by
    split at h
    · next poll =>
      cases h
      exact Surroundings.patience_poll poll
    · cases h

instance [Transport σ] : Transport (Traced σ) where
  isReady w := Transport.isReady w.host
  isConnected w := Transport.isConnected w.host
  send report w := { w with host := Transport.send report w.host }
  patience_send report w := Transport.patience_send report w.host

instance : StatusLight (Traced σ) where
  setLight lit w := { host := StatusLight.setLight lit w.host, deeds := w.deeds ++ [.light lit] }
  patience_setLight lit w := StatusLight.patience_setLight lit w.host

theorem wraps : Wraps (Traced.host : Traced σ → σ) where
  now _ := rfl
  poll w := by
    simp only [Surroundings.poll]
    cases Surroundings.poll w.host <;> rfl
  setLight _ _ := rfl

/-- All that is done is noted. -/
theorem deeds_follow {deeds : List Deed} {s t : Traced σ} (course : follow deeds s = .ok () t) :
    t.deeds = s.deeds ++ deeds := by
  induction deeds generalizing s with
  | nil =>
    cases course
    exact (List.append_nil _).symm
  | cons deed deeds ih =>
    obtain ⟨u, run, later⟩ := of_follow_cons course
    have noted : u.deeds = s.deeds ++ [deed] := by
      cases deed with
      | poll =>
        simp only [Deed.run, Surroundings.poll] at run
        split at run <;> cases run
        rfl
      | light lit =>
        cases run
        rfl
    rw [ih later, noted, List.append_assoc, List.singleton_append]

end Traced

namespace Station

theorem wraps : Wraps (Station.host : Station σ → σ) where
  now _ := rfl
  poll s := by
    simp only [Surroundings.poll, onHost]
    cases Surroundings.poll s.host <;> rfl
  setLight _ _ := rfl

/-- No poll and no light changes the engine. -/
theorem engine_follow {deeds : List Deed} {s t : Station σ} (course : follow deeds s = .ok () t) :
    t.engine = s.engine := by
  induction deeds generalizing s with
  | nil =>
    cases course
    rfl
  | cons deed deeds ih =>
    obtain ⟨u, run, later⟩ := of_follow_cons course
    have kept : u.engine = s.engine := by
      cases deed with
      | poll => exact engine_poll run
      | light lit =>
        cases run
        rfl
    exact (ih later).trans kept

end Station

/-! ## The bench -/

namespace Bench

/-- Of the numbers by which the bench behaves, what is done changes that of the polls alone. -/
theorem numbers_follow {deeds : List Deed} {b t : Bench} (course : follow deeds b = .ok () t) :
    t.polls = b.polls + deeds.count .poll ∧ t.msPerPoll = b.msPerPoll ∧ t.budget = b.budget ∧
      t.connectAfter = b.connectAfter := by
  induction deeds generalizing b with
  | nil =>
    cases course
    exact ⟨rfl, rfl, rfl, rfl⟩
  | cons deed deeds ih =>
    obtain ⟨u, run, later⟩ := of_follow_cons course
    obtain ⟨polls, rest⟩ := ih later
    cases deed with
    | poll =>
      simp only [Deed.run, Surroundings.poll] at run
      split at run <;> cases run
      refine ⟨?_, rest⟩
      rw [polls, List.count_cons_self]
      simp only [polled]
      omega
    | light lit =>
      cases run
      refine ⟨?_, rest⟩
      rw [polls, count_light]
      rfl

/-- The bench keeps pace as long as there are polls. -/
theorem keepsPace {b : Bench} {step polls : Nat} (steady : b.msPerPoll = .ofNat step)
    (enough : polls ≤ b.budget - b.polls) : KeepsPace step polls b := by
  intro deeds t course few
  obtain ⟨made, same, left, -⟩ := numbers_follow course
  refine ⟨t.polled, if_pos (by omega), ?_⟩
  show t.now + t.msPerPoll = t.now + .ofNat step
  rw [same, steady]

/-- The host comes to the bench after as many polls as it should. -/
theorem comesAfter_isConnected {b : Bench} {polls : Nat} (host : b.connectAfter = b.polls + polls) :
    ComesAfter Transport.isConnected polls b := by
  intro n most t course
  obtain ⟨made, -, -, same⟩ := numbers_follow course
  rw [count_waiting] at made
  show decide (t.connectAfter ≤ t.polls) = true ↔ n = polls
  rw [decide_eq_true_iff, same, host, made]
  omega

end Bench

/-! ## The waits of the device -/

/-- Whatever the clock reads, if each poll takes `step` milliseconds and no span of time comes nearer to the
time in which the clock comes round than a poll: a wait comes back after as many polls as take the span,
rounded up; flashes take such waits, switch the light on and off in turn as often as they should, and leave it
off; and before a script is started, the device polls until the host is there, then for four flashing times
and for the initial delay. -/
theorem polls_of_waits [Transport σ] {μ : Type} [Medium μ] {step : Nat} (ticks : 0 < step) :
    (∀ (ms : UInt32) (s : Traced σ), ms.toNat + step ≤ 2 ^ 32 → KeepsPace step (pollsFor step ms) s.host →
      ∃ t, waitMs ms s = .ok () t ∧ t.deeds = s.deeds ++ .replicate (pollsFor step ms) .poll) ∧
    (∀ (on off : UInt32) (count : Nat) (s : Traced σ), on.toNat + step ≤ 2 ^ 32 → off.toNat + step ≤ 2 ^ 32 →
      KeepsPace step (count * (pollsFor step on + pollsFor step off)) s.host →
      ∃ t done, blink on off count s = .ok () t ∧ t.deeds = s.deeds ++ done ∧
        done.count .poll = count * (pollsFor step on + pollsFor step off) ∧
        lights done = flashes count ∧ (0 < count → (lights done).getLast? = some false)) ∧
    ∀ (store : Store μ) (e : Engine) (host : σ) (connect : Nat), 80 + step ≤ 2 ^ 32 →
      store.initialDelay.toNat + step ≤ 2 ^ 32 →
      ComesAfter Transport.isConnected connect (StatusLight.setLight false host) →
      KeepsPace step (connect + 4 * pollsFor step 80 + pollsFor step store.initialDelay) host →
      ∃ t : Traced σ,
        Station.getReady store ⟨e, ⟨host, []⟩⟩ = .ok () ⟨e, t⟩ ∧
        Station.startTyping store ⟨e, ⟨host, []⟩⟩ = .ok (e.start store).state ⟨e.start store, t⟩ ∧
        t.deeds.count .poll = connect + 4 * pollsFor step 80 + pollsFor step store.initialDelay ∧
        lights t.deeds = [false, true, false, true, false] := by
  refine ⟨fun ms s fits pace => ?_, fun on off count s fitsOn fitsOff pace => ?_,
    fun store e host connect fitsFlash fitsDelay found pace => ?_⟩
  · obtain ⟨t, back, course⟩ := waitMs_does ticks fits (Traced.wraps.keepsPace pace)
    exact ⟨t, back, Traced.deeds_follow course⟩
  · obtain ⟨t, back, course⟩ := blink_does ticks fitsOn fitsOff (Traced.wraps.keepsPace pace)
    refine ⟨t, _, back, Traced.deeds_follow course, count_flashing _ _ _, lights_flashing _ _ _, fun some => ?_⟩
    rw [lights_flashing]
    exact getLast?_flashes some
  · have pace' : KeepsPace step (connect + 4 * pollsFor step 80 + pollsFor step store.initialDelay)
        (⟨e, ⟨host, []⟩⟩ : Station (Traced σ)) :=
      Station.wraps.keepsPace (Traced.wraps.keepsPace pace)
    have found' : ComesAfter Transport.isConnected connect
        (StatusLight.setLight false (⟨e, ⟨host, []⟩⟩ : Station (Traced σ))) :=
      Station.wraps.comesAfter (Traced.wraps.comesAfter found)
    obtain ⟨⟨e', t⟩, ready, course⟩ := Station.getReady_does ticks fitsFlash fitsDelay found' pace'
    have same : e' = e := Station.engine_follow course
    subst same
    have deeds : t.deeds = Station.preparing step connect store.initialDelay :=
      Traced.deeds_follow (Station.wraps.follow course)
    refine ⟨t, ready, Station.startTyping_of_ready ready, ?_, ?_⟩
    · rw [deeds, Station.count_preparing]
    · rw [deeds, Station.lights_preparing]
      rfl

/-- Where a poll takes 40 ms, the last of three goes 20 ms past a span of 100 ms, and the last of 13 as far
past the initial delay of half a second. The clock comes round while the light flashes. -/
theorem polls_of_waits_comingRound :
    (∃ t, waitMs 100 (⟨Bench.comingRound, []⟩ : Traced Bench) = .ok () t ∧
      t.deeds = [.poll, .poll, .poll]) ∧
    (∃ t done, blink 80 100 2 (⟨Bench.comingRound, []⟩ : Traced Bench) = .ok () t ∧ t.deeds = done ∧
      done.count .poll = 10 ∧ lights done = [true, false, true, false]) ∧
    ∃ t : Traced Bench,
      Station.startTyping Store.delayedTap ⟨{}, ⟨Bench.comingRound, []⟩⟩ =
        .ok (Engine.start {} Store.delayedTap).state ⟨Engine.start {} Store.delayedTap, t⟩ ∧
      t.deeds.count .poll = 3 + 4 * 2 + 13 := by
  obtain ⟨waits, blinks, starts⟩ := polls_of_waits (σ := Bench) (μ := Memory) (show 0 < 40 by decide)
  have delay : Store.delayedTap.initialDelay = 500 := by decide +kernel
  have pace : ∀ polls ≤ 30, KeepsPace 40 polls Bench.comingRound := fun polls few =>
    Bench.keepsPace rfl few
  refine ⟨?_, ?_, ?_⟩
  · exact waits 100 ⟨Bench.comingRound, []⟩ (by decide) (pace 3 (by decide))
  · obtain ⟨t, done, back, deeds, count, lit, -⟩ :=
      blinks 80 100 2 ⟨Bench.comingRound, []⟩ (by decide) (by decide) (pace 10 (by decide))
    exact ⟨t, done, back, deeds, count, lit⟩
  · have host : ComesAfter Transport.isConnected 3 (StatusLight.setLight false Bench.comingRound) :=
      Bench.comesAfter_isConnected rfl
    obtain ⟨t, -, started, count, -⟩ := starts Store.delayedTap {} Bench.comingRound 3 (by decide)
      (by rw [delay]; decide) host (by rw [delay]; exact pace 24 (by decide))
    rw [delay] at count
    exact ⟨t, started, count⟩

end Autotype
