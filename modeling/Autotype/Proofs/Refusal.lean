import Autotype.Proofs.Acceptance
import Autotype.Store.Memory

/-!
# What a refusal leaves

Each command is checked in full before anything is changed. A request that is refused, for whatever reason
but a wrong checksum, therefore leaves the session and the store as they were, with all that the medium
holds or counts, and so does a request that only asks (`Session.unchanged_of_refused`).
-/

namespace Autotype

theorem Reply.eq_refused {r : Reply} {why : Refusal} (status : r.leadingStatus? = some (.refused why)) :
    r = .refused why := by
  have other : ¬r.IsOk := by
    intro ok
    rw [IsOk, status] at ok
    cases ok
  cases r with
  | silent => cases status
  | status s =>
    have same : (Reply.status s).leadingStatus? = some s := Status.ofCode?_code s
    rw [same] at status
    rw [Option.some.inj status]
    rfl
  | written length => exact absurd (isOk_written length) other
  | contents bytes => exact absurd (isOk_contents bytes) other
  | appended offset checksum => exact absurd (isOk_appended offset checksum) other
  | summary offset checksum => exact absurd (isOk_of_encode rfl) other

namespace Session

variable {μ : Type} [Medium μ]

/-- Whatever the session and the store, the header they go by and the medium: a report whose reply begins with
a status that says that its command, its address or its length is invalid changes nothing about the session,
and nothing about the store, that is neither its header nor the medium, with each cell and whatever is
counted there. A read that is accepted and a request for the status, which always is, change nothing either. -/
theorem unchanged_of_refused (s : Session) (store : Store μ) (report : Bytes) :
    (∀ why ∈ [Refusal.invalidCommand, .invalidAddress, .invalidLength],
      (s.receive store report).reply.leadingStatus? = some (.refused why) →
      (s.receive store report).session = s ∧ (s.receive store report).store = store) ∧
    (∀ address length, Request.ofReport? report = some (.read address length) →
      (s.receive store report).reply.IsOk →
      (s.receive store report).session = s ∧ (s.receive store report).store = store) ∧
    (Request.ofReport? report = some .status →
      (s.receive store report).reply.IsOk ∧
      (s.receive store report).session = s ∧ (s.receive store report).store = store) := by
  have effect := effect_receive s store report
  refine ⟨?_, ?_, ?_⟩
  · intro why listed status
    have refused := Reply.eq_refused status
    have other : why ≠ .checksumMismatch := by
      rintro rfl
      revert listed
      decide
    generalize s.receive store report = outcome at effect refused ⊢
    generalize Request.ofReport? report = asked at effect
    cases effect with
    | refused => exact ⟨rfl, rfl⟩
    | mismatched =>
      cases refused
      exact absurd rfl other
    | _ => cases refused
  · intro address length asked ok
    rw [receive_eq asked, handle] at ok ⊢
    rw [read_of_isOk ok]
    exact ⟨rfl, rfl⟩
  · intro asked
    rw [receive_eq asked]
    exact ⟨Reply.isOk_of_encode rfl, rfl, rfl⟩

/-- A commit of 504 bytes, a read and a request for the status, in the middle of an upload, on a store whose
cells announce a script of which the store does not know. -/
theorem unchanged_of_refused_longCommit :
    let s : Session := { offset := 2, checksum := 0x1D0F }
    let store := (Store.mount ({} : Memory)).writeBlock 0 [0x1A, 0x00, 0x00, 0x00, 0x01, 0x00]
    let commit := s.receive store [0x05, 0x00, 0x1A, 0x00, 0x00, 0x00, 0xF8, 0x01]
    let read := s.receive store [0x02, 0x00, 0x00, 0x08]
    let told := s.receive store [0x06]
    store.storedHeader ≠ store.header ∧
    commit.reply.leadingStatus? = some (.refused .invalidLength) ∧ commit.session = s ∧
      commit.store = store ∧
    read.reply.IsOk ∧ read.session = s ∧ read.store = store ∧
    told.reply.IsOk ∧ told.session = s ∧ told.store = store := by
  intro s store commit read told
  have stale : store.storedHeader ≠ store.header := by decide +kernel
  have refused : commit.reply.leadingStatus? = some (.refused .invalidLength) := by decide +kernel
  have accepted : read.reply.IsOk := by decide +kernel
  have left := (unchanged_of_refused s store _).1 .invalidLength (by decide) refused
  have asked := (unchanged_of_refused s store _).2.1 0 8 (by decide +kernel) accepted
  have answered := (unchanged_of_refused s store [0x06]).2.2 (by decide +kernel)
  exact ⟨stale, refused, left.1, left.2, accepted, asked.1, asked.2, answered⟩

end Session

end Autotype
