import Autotype.Programming.Watch
import Mathlib.Algebra.GroupWithZero.Nat
import Mathlib.Data.Nat.Find

/-!
# Leaving the programming mode in time

While the device waits to leave the programming mode it polls, and looks at the host and at the clock after
each poll. What it finds there makes a vigil: how long each poll takes in true time, and what the host shows
after it (`Vigil`). The device leaves after the first poll that makes it due to leave (`Vigil.Due`), in
whatever world this happens. That a vigil can be of any kind is shown by one whose turns are taken from a
list (`Vigil.ofTurns`).
-/

namespace Autotype

/-- The polls of a world, until one does not come back. -/
structure Vigil (σ : Type) [Surroundings σ] where
  /-- The world after so many polls. -/
  world : Nat → σ
  /-- How many polls come back. -/
  polls : Nat
  /-- The true time before the first poll, in milliseconds. -/
  start : Nat
  /-- How much true time the poll after so many others takes. -/
  span : Nat → Nat
  back : ∀ i < polls, Surroundings.poll (world i) = .ok () (world (i + 1))
  lost : ∃ t, Surroundings.poll (world polls) = .error .gaveUp t
  /-- The clock counts the true time. -/
  reads : ∀ i ≤ polls,
    Surroundings.now (world i) = .ofNat (start + ((List.range i).map span).sum)

namespace Vigil

variable {σ : Type} [Surroundings σ] (v : Vigil σ)

/-- The true time that so many polls take. -/
def passed (i : Nat) : Nat :=
  ((List.range i).map v.span).sum

theorem passed_succ (i : Nat) : v.passed (i + 1) = v.passed i + v.span i := by
  simp [passed, List.range_succ]

variable [ProgrammingLink σ]

/-- Whether the host shows no sign of contact after any of so many polls. -/
def Silent (i : Nat) : Prop :=
  ∀ j, 0 < j → j ≤ i → ProgrammingLink.isActive (v.world j) = false

/-- Whether it is time to leave after so many polls: the host asks for it, or it never made contact and the
clock says that the time is over. -/
def Due (i : Nat) : Prop :=
  ProgrammingLink.exitRequested (v.world i) = true ∨ v.Silent i ∧ 5000 ≤ v.passed i % 2 ^ 32

/-- Whether it is time to leave after so many polls for the first time. -/
def LeavesAfter (i : Nat) : Prop :=
  0 < i ∧ i ≤ v.polls ∧ v.Due i ∧ ∀ j, 0 < j → j < i → ¬ v.Due j

/-- What the device leaves for if it leaves after so many polls. -/
def reason (i : Nat) : RestartReason :=
  if ProgrammingLink.exitRequested (v.world i) then .exitRequested else .idleTimeout

theorem silent_succ (i : Nat) :
    v.Silent (i + 1) ↔ v.Silent i ∧ ProgrammingLink.isActive (v.world (i + 1)) = false := by
  constructor
  · intro silent
    exact ⟨fun j pos le => silent j pos (by omega), silent (i + 1) (by omega) (Nat.le_refl _)⟩
  · rintro ⟨silent, last⟩ j pos le
    rcases Nat.lt_or_eq_of_le le with before | rfl
    · exact silent j pos (by omega)
    · exact last

/-! ## The watch -/

/-- What a watch knows after so many polls that did not make it time to leave. -/
structure Follows (i : Nat) (w : Watch) : Prop where
  since : w.since = Surroundings.now (v.world 0)
  limit : w.limit = programmingTimeout
  seen : w.seen = false ↔ v.Silent i

variable {v}

theorem Follows.elapsed_iff {i : Nat} {w : Watch} (follows : v.Follows i w) {j : Nat} (le : j ≤ v.polls) :
    elapsed (Surroundings.now (v.world j)) w.since w.limit = true ↔ 5000 ≤ v.passed j % 2 ^ 32 := by
  rw [follows.since, follows.limit, v.reads j le, v.reads 0 (Nat.zero_le _)]
  exact elapsed_ofNat_iff v.start (v.passed j) programmingTimeout

/-- One more poll, and a look after it: the device leaves, or watches on. -/
theorem Follows.round {i : Nat} {w : Watch} (follows : v.Follows i w) (back : i < v.polls) :
    v.Due (i + 1) ∧ Routine.loop watchOnce w (v.world i) = .ok (v.reason (i + 1)) (v.world (i + 1)) ∨
    ¬ v.Due (i + 1) ∧ ∃ w', v.Follows (i + 1) w' ∧
      Routine.loop watchOnce w (v.world i) = Routine.loop watchOnce w' (v.world (i + 1)) := by
  have time := follows.elapsed_iff (Nat.succ_le_of_lt back)
  rw [Routine.loop_eq polls_watchOnce, watchOnce_eq, v.back i back]
  simp only [Watch.check, Due, reason]
  by_cases exit : ProgrammingLink.exitRequested (v.world (i + 1)) = true
  · rw [if_pos exit, if_pos exit]
    exact .inl ⟨.inl exit, rfl⟩
  have seen : (w.seen || ProgrammingLink.isActive (v.world (i + 1))) = false ↔ v.Silent (i + 1) := by
    rw [Bool.or_eq_false_iff, follows.seen, silent_succ]
  have expired : (!(w.seen || ProgrammingLink.isActive (v.world (i + 1))) &&
      elapsed (Surroundings.now (v.world (i + 1))) w.since w.limit) = true ↔
      v.Silent (i + 1) ∧ 5000 ≤ v.passed (i + 1) % 2 ^ 32 := by
    rw [Bool.and_eq_true, Bool.not_eq_true', seen, time]
  rw [if_neg exit, if_neg exit]
  by_cases idle : v.Silent (i + 1) ∧ 5000 ≤ v.passed (i + 1) % 2 ^ 32
  · rw [if_pos (expired.mpr idle)]
    exact .inl ⟨.inr idle, rfl⟩
  · rw [if_neg (mt expired.mp idle)]
    refine .inr ⟨?_, { w with seen := w.seen || ProgrammingLink.isActive (v.world (i + 1)) },
      ⟨follows.since, follows.limit, seen⟩, rfl⟩
    rintro (asked | silent)
    · exact exit asked
    · exact idle silent

/-- As long as it was not time to leave, the device watches. -/
theorem watches {i : Nat} (le : i ≤ v.polls) (early : ∀ j, 0 < j → j ≤ i → ¬ v.Due j) :
    ∃ w, v.Follows i w ∧ waitForExit (v.world 0) = Routine.loop watchOnce w (v.world i) := by
  induction i with
  | zero =>
    refine ⟨{ since := Surroundings.now (v.world 0) }, ⟨rfl, rfl, ?_⟩, rfl⟩
    refine iff_of_true rfl fun j pos none => ?_
    omega
  | succ i ih =>
    obtain ⟨w, follows, same⟩ := ih (by omega) fun j pos before => early j pos (by omega)
    rcases follows.round le with ⟨due, -⟩ | ⟨-, w', follows', round⟩
    · exact absurd due (early (i + 1) (by omega) (Nat.le_refl _))
    · exact ⟨w', follows', same.trans round⟩

theorem waitForExit_of_leavesAfter {i : Nat} (leaves : v.LeavesAfter i) :
    waitForExit (v.world 0) = .ok (v.reason i) (v.world i) := by
  obtain ⟨pos, le, due, early⟩ := leaves
  obtain ⟨k, rfl⟩ : ∃ k, i = k + 1 := ⟨i - 1, by omega⟩
  obtain ⟨w, follows, same⟩ := watches (Nat.le_of_succ_le le) fun j pos before =>
    early j pos (by omega)
  rcases follows.round le with ⟨-, round⟩ | ⟨quiet, -⟩
  · exact same.trans round
  · exact absurd due quiet

/-- Where it is never time to leave, the last poll is waited for in vain. -/
theorem waitForExit_of_never (never : ∀ j, 0 < j → j ≤ v.polls → ¬ v.Due j) :
    ∃ t, waitForExit (v.world 0) = .error .gaveUp t := by
  obtain ⟨w, -, same⟩ := watches (Nat.le_refl _) never
  obtain ⟨t, lost⟩ := v.lost
  rw [Routine.loop_eq polls_watchOnce, watchOnce_eq, lost] at same
  exact ⟨t, same⟩

theorem leavesAfter_or_never (v : Vigil σ) :
    (∃ i, v.LeavesAfter i) ∨ ∀ j, 0 < j → j ≤ v.polls → ¬ v.Due j := by
  by_cases some : ∃ i, 0 < i ∧ i ≤ v.polls ∧ v.Due i
  · classical
    obtain ⟨pos, le, due⟩ := Nat.find_spec some
    refine .inl ⟨Nat.find some, pos, le, due, fun j pos before due => ?_⟩
    exact Nat.find_min some before ⟨pos, by omega, due⟩
  · exact .inr fun j pos le due => some ⟨j, pos, le, due⟩

theorem reason_eq_exitRequested_iff {i : Nat} :
    v.reason i = .exitRequested ↔ ProgrammingLink.exitRequested (v.world i) = true := by
  unfold reason
  split
  · next exit => exact iff_of_true rfl exit
  · next stay => exact iff_of_false RestartReason.noConfusion stay

theorem waitForExit_eq_ok_iff {r : RestartReason} {t : σ} :
    waitForExit (v.world 0) = .ok r t ↔ ∃ i, v.LeavesAfter i ∧ t = v.world i ∧ r = v.reason i := by
  constructor
  · intro left
    rcases v.leavesAfter_or_never with ⟨i, leaves⟩ | never
    · rw [waitForExit_of_leavesAfter leaves] at left
      cases left
      exact ⟨i, leaves, rfl, rfl⟩
    · obtain ⟨t', lost⟩ := waitForExit_of_never never
      rw [lost] at left
      cases left
  · rintro ⟨i, leaves, rfl, rfl⟩
    exact waitForExit_of_leavesAfter leaves

/-- A reason to leave that is no wish of the host is that the time is over. -/
theorem LeavesAfter.idle {i : Nat} (leaves : v.LeavesAfter i) (idle : v.reason i = .idleTimeout) :
    5000 ≤ v.passed i ∧ v.Silent i := by
  obtain ⟨-, -, due | ⟨silent, late⟩, -⟩ := leaves
  · rw [reason_eq_exitRequested_iff.mpr due] at idle
    cases idle
  · exact ⟨Nat.le_trans late (Nat.mod_le _ _), silent⟩

/-- At a host that shows nothing, the time is over at the first poll at which it is over in truth, unless a
poll takes so long that the clock comes round. -/
theorem leavesAfter_of_silent {i : Nat} (pos : 0 < i) (le : i ≤ v.polls)
    (short : ∀ j < i, v.span j < 2 ^ 32 - 5000)
    (quiet : ∀ j, 0 < j → j ≤ i → ProgrammingLink.isActive (v.world j) = false ∧
      ProgrammingLink.exitRequested (v.world j) = false)
    (before : ∀ j < i, v.passed j < 5000) (late : 5000 ≤ v.passed i) :
    v.LeavesAfter i ∧ v.reason i = .idleTimeout := by
  have silent : v.Silent i := fun j pos le => (quiet j pos le).1
  have whole : v.passed i % 2 ^ 32 = v.passed i := by
    obtain ⟨k, rfl⟩ : ∃ k, i = k + 1 := ⟨i - 1, by omega⟩
    have last := short k (Nat.lt_succ_self k)
    have early := before k (Nat.lt_succ_self k)
    rw [passed_succ]
    exact Nat.mod_eq_of_lt (by omega)
  refine ⟨⟨pos, le, .inr ⟨silent, by rwa [whole]⟩, ?_⟩, ?_⟩
  · rintro j pos' earlier (asked | ⟨-, late'⟩)
    · rw [(quiet j pos' (Nat.le_of_lt earlier)).2] at asked
      cases asked
    · have early := before j earlier
      have small := Nat.mod_le (v.passed j) (2 ^ 32)
      omega
  · rw [reason, (quiet i pos (Nat.le_refl i)).2]
    rfl

/-- The device leaves the programming mode after the first poll after which the host asks for it, or after
which the clock says that the time is over while no poll so far has shown a contact; and for no other reason.
So it never leaves an idle host too early or after a contact, and it leaves a host that shows nothing as soon
as the time is over. -/
theorem leaves_when_due (v : Vigil σ) :
    (∀ r t, waitForExit (v.world 0) = .ok r t ↔ ∃ i, v.LeavesAfter i ∧ t = v.world i ∧
      (r = .exitRequested ↔ ProgrammingLink.exitRequested (v.world i) = true)) ∧
    (∀ t, waitForExit (v.world 0) = .ok .idleTimeout t →
      ∃ i, v.LeavesAfter i ∧ t = v.world i ∧ 5000 ≤ v.passed i ∧ v.Silent i) ∧
    ∀ i, 0 < i → i ≤ v.polls → (∀ j < i, v.span j < 2 ^ 32 - 5000) →
      (∀ j, 0 < j → j ≤ i → ProgrammingLink.isActive (v.world j) = false ∧
        ProgrammingLink.exitRequested (v.world j) = false) →
      (∀ j < i, v.passed j < 5000) → 5000 ≤ v.passed i →
      waitForExit (v.world 0) = .ok .idleTimeout (v.world i) := by
  refine ⟨fun r t => ?_, fun t left => ?_, fun i pos le short quiet before late => ?_⟩
  · rw [waitForExit_eq_ok_iff]
    refine exists_congr fun i => and_congr_right fun _ => and_congr_right fun _ => ?_
    rw [← reason_eq_exitRequested_iff]
    cases r <;> cases v.reason i <;> decide
  · obtain ⟨i, leaves, there, idle⟩ := waitForExit_eq_ok_iff.mp left
    exact ⟨i, leaves, there, leaves.idle idle.symm⟩
  · obtain ⟨leaves, idle⟩ := leavesAfter_of_silent pos le short quiet before late
    exact waitForExit_eq_ok_iff.mpr ⟨i, leaves, rfl, idle.symm⟩

end Vigil

/-! ## Any turns -/

/-- What a poll brings: how long it takes, and what the host shows after it. -/
structure Turn where
  ms : Nat
  active : Bool := false
  exit : Bool := false

/-- A world that takes its turns from a list. -/
structure Scene where
  time : Nat
  active : Bool := false
  exit : Bool := false
  turns : List Turn

namespace Scene

def next (s : Scene) : Scene :=
  match s.turns with
  | [] => s
  | t :: rest => { time := s.time + t.ms, active := t.active, exit := t.exit, turns := rest }

instance : Surroundings Scene where
  now s := .ofNat s.time
  poll s := if s.turns.isEmpty then .error .gaveUp s else .ok () s.next
  patience s := s.turns.length
  patience_poll {s s'} h := by
    cases left : s.turns with
    | nil =>
      rw [left] at h
      cases h
    | cons t rest =>
      rw [left] at h
      cases h
      simp [next, left]

instance : ProgrammingLink Scene where
  isActive s := s.active
  exitRequested s := s.exit

def after (s : Scene) : Nat → Scene
  | 0 => s
  | n + 1 => (s.after n).next

theorem turns_next (s : Scene) : s.next.turns = s.turns.tail := by
  unfold next
  split
  · next none => rw [none, List.tail_nil]
  · next some => rw [some, List.tail_cons]

theorem turns_after (s : Scene) (n : Nat) : (s.after n).turns = s.turns.drop n := by
  induction n with
  | zero => rfl
  | succ n ih => rw [after, turns_next, ih, List.tail_drop]

theorem after_succ (s : Scene) {n : Nat} (more : n < s.turns.length) :
    s.after (n + 1) = { time := (s.after n).time + s.turns[n].ms, active := s.turns[n].active
                        exit := s.turns[n].exit, turns := s.turns.drop (n + 1) } := by
  rw [after, next, turns_after, List.drop_eq_getElem_cons more]

theorem time_after (s : Scene) {n : Nat} (le : n ≤ s.turns.length) :
    (s.after n).time = s.time + ((List.range n).map fun i => s.turns[i]?.elim 0 Turn.ms).sum := by
  induction n with
  | zero => rfl
  | succ n ih =>
    have more : n < s.turns.length := le
    rw [after_succ s more, List.range_succ, List.map_append, List.sum_append]
    simp [ih (Nat.le_of_lt more), List.getElem?_eq_getElem more, Nat.add_assoc]

end Scene

/-- The vigil in which the polls bring the turns of a list. -/
def Vigil.ofTurns (start : Nat) (turns : List Turn) : Vigil Scene where
  world := Scene.after { time := start, turns := turns }
  polls := turns.length
  start := start
  span i := turns[i]?.elim 0 Turn.ms
  back i more := by
    have left : (Scene.after { time := start, turns := turns } i).turns ≠ [] := by
      rw [Scene.turns_after]
      exact mt List.drop_eq_nil_iff.mp (Nat.not_le_of_lt more)
    exact if_neg (mt List.isEmpty_iff.mp left)
  lost := by
    have none : (Scene.after { time := start, turns := turns } turns.length).turns = [] := by
      rw [Scene.turns_after]
      exact List.drop_length
    exact ⟨_, if_pos (List.isEmpty_iff.mpr none)⟩
  reads i le := congrArg UInt32.ofNat (Scene.time_after { time := start, turns := turns } le)

/-- Polls at a host that shows nothing, while the clock starts over. -/
def Vigil.quiet : Vigil Scene :=
  .ofTurns (2 ^ 32 - 3000) [{ ms := 4999 }, { ms := 1 }, { ms := 10 }]

theorem Vigil.leaves_when_due_quiet :
    (∀ j < 2, quiet.span j < 2 ^ 32 - 5000) ∧
    (∀ j, 0 < j → j ≤ 2 → ProgrammingLink.isActive (quiet.world j) = false ∧
      ProgrammingLink.exitRequested (quiet.world j) = false) ∧
    (∀ j < 2, quiet.passed j < 5000) ∧ 5000 ≤ quiet.passed 2 ∧
    waitForExit (quiet.world 0) = .ok .idleTimeout (quiet.world 2) ∧
    ∃ i, quiet.LeavesAfter i ∧ quiet.world 2 = quiet.world i ∧ 5000 ≤ quiet.passed i ∧ quiet.Silent i := by
  have short : ∀ j < 2, quiet.span j < 2 ^ 32 - 5000 := by decide
  have shows : ∀ j, 0 < j → j ≤ 2 → ProgrammingLink.isActive (quiet.world j) = false ∧
      ProgrammingLink.exitRequested (quiet.world j) = false := by
    intro j pos le
    rcases (by omega : j = 1 ∨ j = 2) with rfl | rfl
    · exact ⟨rfl, rfl⟩
    · exact ⟨rfl, rfl⟩
  have before : ∀ j < 2, quiet.passed j < 5000 := by decide
  have late : 5000 ≤ quiet.passed 2 := by decide
  obtain ⟨-, idle, leaves⟩ := leaves_when_due quiet
  have left := leaves 2 (by decide) (by decide) short shows before late
  exact ⟨short, shows, before, late, left, idle _ left⟩

end Autotype
