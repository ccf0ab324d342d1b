import Autotype.Proofs.Effect
import Autotype.Proofs.Overlay

/-!
# Contacts with the programmer

A report that reaches the programmer is a request of its session, after which the store may be flushed.
A flush changes neither the contents nor the header, so what is known of requests is known of reports. A
contact is idle if an upload that is under way can go on after it as if nothing had happened.
-/

namespace Autotype

/-- A contact of the host with the programmer. -/
inductive Contact where
  | report (data : Bytes)
  /-- A reply is fetched into a buffer. -/
  | fetch (buffer : Bytes)
  | touch

/-- Whether a contact is a report that asks for a write or a commit. -/
def Contact.asksForFlush : Contact → Bool
  | .report data => Programmer.asksForFlush data
  | .fetch _ | .touch => false

namespace Programmer

theorem store_getReport {μ : Type} (p : Programmer μ) (buffer : Bytes) :
    (p.getReport buffer).2.2.store = p.store := by
  rw [getReport]
  split <;> rfl

variable {μ : Type} [Medium μ] (p : Programmer μ) (report : Bytes)

/-- The status of the reply that waits to be fetched. -/
def status? (p : Programmer μ) : Option Status :=
  p.pending.bind Reply.leadingStatus?

theorem session_setReport :
    (p.setReport report).session = (p.session.receive p.store report).session := by
  rw [setReport, Session.receive_take]

theorem store_setReport :
    (p.setReport report).store = (p.session.receive p.store report).store ∨
    (p.setReport report).store = (p.session.receive p.store report).store.flush := by
  rw [setReport, Session.receive_take]
  by_cases flushes : asksForFlush report = true
  · exact .inr (if_pos flushes)
  · exact .inl (if_neg flushes)

theorem pending_setReport {reply : Reply} (replied : (p.session.receive p.store report).reply = reply)
    (some : reply.isEmpty = false) : (p.setReport report).pending = .some reply := by
  rw [setReport, Session.receive_take, replied]
  exact if_neg (Bool.not_eq_true _ ▸ some)

theorem status?_setReport {reply : Reply} {status : Status}
    (replied : (p.session.receive p.store report).reply = reply)
    (some : reply.leadingStatus? = .some status) : (p.setReport report).status? = .some status := by
  have full : reply.isEmpty = false := by
    cases empty : reply.encode with
    | nil =>
      rw [Reply.leadingStatus?, empty] at some
      cases some
    | cons b bs =>
      rw [Reply.isEmpty, empty]
      rfl
  rw [status?, pending_setReport p report replied full]
  exact some

section

variable [LawfulMedium μ]

theorem readByte_setReport : (p.setReport report).store.readByte =
    (p.session.receive p.store report).store.readByte := by
  rcases p.store_setReport report with same | same
  · rw [same]
  · rw [same, Store.readByte_flush]

theorem size_setReport : (p.setReport report).store.size =
    (p.session.receive p.store report).store.size := by
  rcases p.store_setReport report with same | same
  · rw [same]
  · rw [same, Store.size_flush]

end

/-! ## Contacts of all kinds -/

/-- A programmer after a contact. -/
def meet (p : Programmer μ) : Contact → Programmer μ
  | .report data => p.setReport data
  | .fetch buffer => (p.getReport buffer).2.2
  | .touch => p.noteContact

/-- A programmer after these contacts. -/
def meets (p : Programmer μ) (contacts : List Contact) : Programmer μ :=
  contacts.foldl meet p

theorem meets_concat (p : Programmer μ) (contacts : List Contact) (contact : Contact) :
    p.meets (contacts ++ [contact]) = (p.meets contacts).meet contact := by
  rw [meets, List.foldl_append]
  rfl

/-! ## Idle contacts -/

/-- Whether a report only reads, asks how things stand or asks to leave, or is refused before any
checksum is compared. -/
def Idle : Prop :=
  (∃ address length, Request.ofReport? report = some (.read address length)) ∨
  Request.ofReport? report = some .status ∨ Request.ofReport? report = some .exit ∨
  ∃ why, why ≠ .checksumMismatch ∧ (p.session.receive p.store report).reply = .refused why

/-- Whether a programmer becomes another by one idle contact. -/
inductive Idles (p : Programmer μ) : Programmer μ → Prop
  | asks (report : Bytes) (idle : p.Idle report) : Idles p (p.setReport report)
  | fetches (buffer : Bytes) : Idles p (p.getReport buffer).2.2
  | touches : Idles p p.noteContact

/-- Whether two programmers are the same as far as an upload is concerned. -/
structure Same (p q : Programmer μ) : Prop where
  cells : q.store.readByte = p.store.readByte
  size : q.store.size = p.store.size
  offset : q.session.offset = p.session.offset
  checksum : q.session.checksum = p.session.checksum

variable {p report}

theorem Idle.kept (idle : p.Idle report) :
    (p.session.receive p.store report).store = p.store ∧
    (p.session.receive p.store report).session.offset = p.session.offset ∧
    (p.session.receive p.store report).session.checksum = p.session.checksum := by
  have effect := Session.effect_receive p.session p.store report
  unfold Idle at idle
  generalize Request.ofReport? report = asked at effect idle
  generalize p.session.receive p.store report = outcome at effect idle ⊢
  rcases idle with ⟨address, length, rfl⟩ | rfl | rfl | ⟨why, other, replied⟩
  · cases effect <;> exact ⟨rfl, rfl, rfl⟩
  · cases effect <;> exact ⟨rfl, rfl, rfl⟩
  · cases effect <;> exact ⟨rfl, rfl, rfl⟩
  · cases effect with
    | refused => exact ⟨rfl, rfl, rfl⟩
    | mismatched =>
      cases replied
      exact absurd rfl other
    | _ => cases replied

theorem Idles.same [LawfulMedium μ] {q : Programmer μ} (idles : p.Idles q) : p.Same q := by
  cases idles with
  | asks report idle =>
    obtain ⟨store, offset, checksum⟩ := idle.kept
    refine ⟨?_, ?_, ?_, ?_⟩
    · rw [readByte_setReport, store]
    · rw [size_setReport, store]
    · rw [session_setReport, offset]
    · rw [session_setReport, checksum]
  | fetches buffer =>
    rw [getReport]
    split <;> exact ⟨rfl, rfl, rfl, rfl⟩
  | touches => exact ⟨rfl, rfl, rfl, rfl⟩

end Programmer

end Autotype
