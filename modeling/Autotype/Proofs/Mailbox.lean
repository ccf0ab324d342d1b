import Autotype.Proofs.Contact
import Autotype.Proofs.Replies
import Autotype.Store.Memory
import Mathlib.Data.List.Induction

/-!
# The mailbox

Between the host's reports and its fetches the programmer is a mailbox with room for one letter. A report
puts its reply there, whatever was there before, and an empty reply clears it; whoever fetches takes the
letter away, and a touch leaves it alone. So what a fetch finds is the reply to the last report if no other
fetch came since (`Programmer.letter?_meets`), and this says all about the buffer that it fills.
-/

namespace Autotype

/-! ## The last report -/

/-- Whether a report with these data came after the contacts before it, and since then nothing but
touches. -/
def Contact.Unfetched (contacts before : List Contact) (data : Bytes) : Prop :=
  ∃ after, contacts = before ++ .report data :: after ∧ ∀ contact ∈ after, contact = .touch

namespace Contact

variable {contacts before : List Contact} {data : Bytes}

theorem not_unfetched_nil : ¬Unfetched [] before data := by
  rintro ⟨after, split, -⟩
  exact absurd split.symm (List.append_ne_nil_of_right_ne_nil _ (List.cons_ne_nil _ _))

theorem unfetched_concat_iff {contact : Contact} :
    Unfetched (contacts ++ [contact]) before data ↔
      contact = .report data ∧ contacts = before ∨
      contact = .touch ∧ Unfetched contacts before data := by
  constructor
  · rintro ⟨after, split, touches⟩
    rcases after.eq_nil_or_concat with rfl | ⟨after, last, rfl⟩
    · obtain ⟨same, same'⟩ := List.append_singleton_inj.mp split
      exact .inl ⟨same', same⟩
    · rw [List.concat_eq_append] at split touches
      rw [← List.cons_append, ← List.append_assoc] at split
      obtain ⟨same, same'⟩ := List.append_singleton_inj.mp split
      have touched := touches last (List.mem_append_right _ (List.mem_singleton_self last))
      exact .inr ⟨same'.trans touched, after, same, fun c mem => touches c (List.mem_append_left _ mem)⟩
  · rintro (⟨rfl, rfl⟩ | ⟨rfl, after, rfl, touches⟩)
    · exact ⟨[], rfl, List.forall_mem_nil _⟩
    · refine ⟨after ++ [.touch], by rw [List.append_assoc, List.cons_append], ?_⟩
      exact List.forall_mem_append.mpr ⟨touches, List.forall_mem_singleton.mpr rfl⟩

end Contact

/-! ## The letter -/

namespace Programmer

variable {μ : Type}

theorem session_getReport (p : Programmer μ) (buffer : Bytes) :
    (p.getReport buffer).2.2.session = p.session := by
  rw [getReport]
  split <;> rfl

theorem pending_getReport (p : Programmer μ) (buffer : Bytes) :
    (p.getReport buffer).2.2.pending = none := by
  rw [getReport]
  split <;> rfl

theorem active_getReport (p : Programmer μ) (buffer : Bytes) :
    (p.getReport buffer).2.2.active = true := by
  rw [getReport]
  split <;> rfl

/-- The letter in the mailbox, as it is sent. -/
def letter? (p : Programmer μ) : Option Bytes :=
  p.pending.map Reply.encode

theorem getReport_of_letter {p : Programmer μ} {reply : Bytes} (waits : p.letter? = some reply)
    (buffer : Bytes) :
    (p.getReport buffer).1 = min buffer.length reportSize ∧
    (p.getReport buffer).2.1 = (Reply.padded reply).take (min buffer.length reportSize) ++
      buffer.drop (min buffer.length reportSize) := by
  obtain ⟨r, pending, rfl⟩ := Option.map_eq_some_iff.mp waits
  rw [getReport, pending]
  exact ⟨rfl, rfl⟩

theorem getReport_of_no_letter {p : Programmer μ} (none : p.letter? = none) (buffer : Bytes) :
    (p.getReport buffer).1 = 0 ∧ (p.getReport buffer).2.1 = buffer := by
  rw [getReport, Option.map_eq_none_iff.mp none]
  exact ⟨rfl, rfl⟩

variable [Medium μ]

/-- What a programmer replies to a report, as it is sent. -/
def answer (p : Programmer μ) (data : Bytes) : Bytes :=
  (p.session.receive p.store data).reply.encode

theorem letter?_setReport (p : Programmer μ) (data : Bytes) :
    (p.setReport data).letter? = if p.answer data = [] then none else some (p.answer data) := by
  have pending : (p.setReport data).pending =
      if (p.session.receive p.store data).reply.isEmpty then none
      else some (p.session.receive p.store data).reply := by
    rw [setReport, Session.receive_take]
  rw [letter?, pending, Reply.isEmpty, answer]
  by_cases empty : (p.session.receive p.store data).reply.encode = []
  · rw [if_pos empty, if_pos (List.isEmpty_iff.mpr empty)]
    rfl
  · rw [if_neg empty, if_neg (mt List.isEmpty_iff.mp empty)]
    rfl

/-- Whether these bytes are the reply to the last report, are not empty and were not fetched yet. -/
def Waiting (p : Programmer μ) (contacts : List Contact) (reply : Bytes) : Prop :=
  ∃ before data, Contact.Unfetched contacts before data ∧ reply = (p.meets before).answer data ∧
    reply ≠ []

/-- What waits in the mailbox is the reply to the last report, and nothing waits after a fetch. -/
theorem letter?_meets {p : Programmer μ} (new : p.letter? = none) (contacts : List Contact)
    (reply : Bytes) : (p.meets contacts).letter? = some reply ↔ p.Waiting contacts reply := by
  induction contacts using List.reverseRecOn with
  | nil =>
    refine ⟨fun waits => ?_, ?_⟩
    · cases new.symm.trans waits
    · rintro ⟨before, data, unfetched, -⟩
      exact absurd unfetched Contact.not_unfetched_nil
  | append_singleton contacts contact ih =>
    rw [meets_concat]
    simp only [Waiting, Contact.unfetched_concat_iff]
    cases contact with
    | report data =>
      show ((p.meets contacts).setReport data).letter? = some reply ↔ _
      rw [letter?_setReport]
      constructor
      · intro waits
        split at waits
        · cases waits
        · next full =>
          cases waits
          exact ⟨contacts, data, .inl ⟨rfl, rfl⟩, rfl, full⟩
      · rintro ⟨before, data', ⟨⟨⟩, rfl⟩ | ⟨⟨⟩, -⟩, rfl, full⟩
        exact if_neg full
    | fetch buffer =>
      refine ⟨fun waits => ?_, ?_⟩
      · have cleared : ((p.meets contacts).getReport buffer).2.2.letter? = none :=
          congrArg _ (pending_getReport _ buffer)
        cases cleared.symm.trans waits
      · rintro ⟨before, data, ⟨⟨⟩, -⟩ | ⟨⟨⟩, -⟩, -⟩
    | touch =>
      refine Iff.trans ih ?_
      constructor
      · rintro ⟨before, data, unfetched, rest⟩
        exact ⟨before, data, .inr ⟨rfl, unfetched⟩, rest⟩
      · rintro ⟨before, data, ⟨⟨⟩, -⟩ | ⟨-, unfetched⟩, rest⟩
        exact ⟨before, data, unfetched, rest⟩

theorem active_meet (p : Programmer μ) (contact : Contact) : (p.meet contact).active = true := by
  cases contact with
  | fetch buffer => exact active_getReport p buffer
  | report | touch => rfl

theorem active_meets (p : Programmer μ) (contacts : List Contact) :
    (p.meets contacts).active = true ↔ p.active = true ∨ contacts ≠ [] := by
  induction contacts using List.reverseRecOn with
  | nil => exact (or_iff_left fun some => some rfl).symm
  | append_singleton contacts contact =>
    rw [meets_concat]
    exact iff_of_true (active_meet _ contact) (.inr (List.append_ne_nil_of_right_ne_nil _ (List.cons_ne_nil _ _)))

/-- After any contacts with a programmer that had heard nothing before, a fetch finds the reply to the last
report, unless that is empty or was fetched before: it is filled up with zeros and as much of it as fits goes
over the start of the buffer, of which the rest is left alone. Otherwise nothing is fetched and the whole
buffer is left alone. Only a wish to leave has an empty reply. Every contact counts as a sign of life, for
good, and neither a fetch nor a touch has to do with the session or the store. -/
theorem fetches_last_reply (store : Store μ) (contacts : List Contact) (buffer : Bytes) :
    (∀ reply, (new store).Waiting contacts reply →
      (((new store).meets contacts).getReport buffer).1 = min buffer.length reportSize ∧
      (((new store).meets contacts).getReport buffer).2.1 =
        (Reply.padded reply).take (min buffer.length reportSize) ++
          buffer.drop (min buffer.length reportSize)) ∧
    ((∀ reply, ¬(new store).Waiting contacts reply) →
      (((new store).meets contacts).getReport buffer).1 = 0 ∧
      (((new store).meets contacts).getReport buffer).2.1 = buffer) ∧
    (∀ data, ((new store).meets contacts).answer data = [] ↔ data.head? = some Request.exitCommand) ∧
    (((new store).meets contacts).active = true ↔ contacts ≠ []) ∧
    (∀ later, ((new store).meets contacts).active = true →
      ((new store).meets (contacts ++ later)).active = true) ∧
    (((new store).meets contacts).getReport buffer).2.2.session =
      ((new store).meets contacts).session ∧
    (((new store).meets contacts).getReport buffer).2.2.store = ((new store).meets contacts).store ∧
    ((new store).meets contacts).noteContact.session = ((new store).meets contacts).session ∧
    ((new store).meets contacts).noteContact.store = ((new store).meets contacts).store := by
  have letter := letter?_meets (p := new store) rfl contacts
  have active : ∀ contacts, ((new store).meets contacts).active = true ↔ contacts ≠ [] := by
    intro contacts
    rw [active_meets]
    exact or_iff_right Bool.false_ne_true
  refine ⟨?_, ?_, ?_, active contacts, ?_, session_getReport _ buffer, store_getReport _ buffer, rfl, rfl⟩
  · intro reply waits
    exact getReport_of_letter ((letter reply).mpr waits) buffer
  · intro none
    refine getReport_of_no_letter ?_ buffer
    exact Option.eq_none_iff_forall_ne_some.mpr fun reply waits => none reply ((letter reply).mp waits)
  · intro data
    exact Session.encode_receive_eq_nil_iff _ _ data
  · intro later earlier
    refine (active _).mpr fun empty => (active contacts).mp earlier ?_
    exact (List.append_eq_nil_iff.mp empty).1

/-- A long reply that is not fetched, then a short one, and a touch. -/
def shortReplyWaits : List Contact :=
  [.report [Request.statusCommand], .report [Request.resetCommand], .touch]

/-- The short reply is fetched into two bytes, and nothing of the long one comes with it; had the host asked
to leave first, nothing would be fetched. -/
theorem fetches_last_reply_short :
    (new (.mount ({} : Memory))).Waiting shortReplyWaits [0x00] ∧
    (((new (.mount ({} : Memory))).meets shortReplyWaits).getReport [0xAA, 0xBB]).1 = 2 ∧
    (((new (.mount ({} : Memory))).meets shortReplyWaits).getReport [0xAA, 0xBB]).2.1 = [0x00, 0x00] ∧
    (∀ reply, ¬(new (.mount ({} : Memory))).Waiting
      (shortReplyWaits ++ [.report [Request.exitCommand]]) reply) ∧
    (((new (.mount ({} : Memory))).meets
      (shortReplyWaits ++ [.report [Request.exitCommand]])).getReport [0xAA, 0xBB]).1 = 0 ∧
    (((new (.mount ({} : Memory))).meets
      (shortReplyWaits ++ [.report [Request.exitCommand]])).getReport [0xAA, 0xBB]).2.1 = [0xAA, 0xBB] := by
  have waits : (new (.mount ({} : Memory))).Waiting shortReplyWaits [0x00] :=
    ⟨[.report [Request.statusCommand]], [Request.resetCommand],
      ⟨[.touch], rfl, List.forall_mem_singleton.mpr rfl⟩, by decide +kernel, List.cons_ne_nil _ _⟩
  have cleared : ∀ reply, ¬(new (.mount ({} : Memory))).Waiting
      (shortReplyWaits ++ [.report [Request.exitCommand]]) reply := by
    rintro reply ⟨before, data, unfetched, same, full⟩
    rcases Contact.unfetched_concat_iff.mp unfetched with ⟨⟨⟩, -⟩ | ⟨⟨⟩, -⟩
    exact full (same.trans ((Session.encode_receive_eq_nil_iff _ _ _).mpr rfl))
  have fetched := (fetches_last_reply (.mount ({} : Memory)) shortReplyWaits [0xAA, 0xBB]).1 [0x00] waits
  have nothing := (fetches_last_reply (.mount ({} : Memory))
    (shortReplyWaits ++ [.report [Request.exitCommand]]) [0xAA, 0xBB]).2.1 cleared
  exact ⟨waits, fetched.1, fetched.2, cleared, nothing⟩

end Programmer

end Autotype
