import Autotype.Proofs.Chip
import Autotype.Proofs.Contact
import Mathlib.Data.List.DropRight

/-!
# Snapshots on the chip

The chip is a snapshot of the image that the store works on. It is taken whenever a write or a commit is
asked for, and nothing else that the host does changes it (`Programmer.flash_meet`). So at any time the chip
holds the image as it was after the last such report, however many writes to the image came after it.
-/

namespace Autotype.Programmer

variable {p : Programmer FlashStore}

/-- A report flushes what it leaves, or leaves the chip alone. -/
theorem flash_setReport (settled : p.store.medium.Settled) (report : Bytes) :
    (p.setReport report).store.medium.Settled ∧
    (p.setReport report).store.medium.flash.image =
      if asksForFlush report then (p.setReport report).store.medium.image
      else p.store.medium.flash.image := by
  have kept := Session.receive_kept (P := fun m : FlashStore => m.Settled ∧ m.flash = p.store.medium.flash)
    (fun _ a v known => ⟨known.1.write a v, known.2⟩) p.session ⟨settled, rfl⟩ report
  rw [setReport, Session.receive_take]
  generalize p.session.receive p.store report = outcome at kept
  obtain ⟨settled', flash⟩ := kept
  cases asksForFlush report with
  | false =>
    refine ⟨settled', ?_⟩
    show outcome.store.medium.flash.image = p.store.medium.flash.image
    rw [flash]
  | true =>
    obtain ⟨settled'', image⟩ := settled'.flush
    refine ⟨settled'', ?_⟩
    show outcome.store.medium.flush.flash.image = outcome.store.medium.flush.image
    rw [image, FlashStore.image_flush]

/-- A contact takes a snapshot of the image that it leaves, or leaves the chip alone. -/
theorem flash_meet (settled : p.store.medium.Settled) (contact : Contact) :
    (p.meet contact).store.medium.Settled ∧
    (p.meet contact).store.medium.flash.image =
      if contact.asksForFlush then (p.meet contact).store.medium.image
      else p.store.medium.flash.image := by
  cases contact with
  | report data => exact flash_setReport settled data
  | fetch buffer =>
    have same : (p.meet (.fetch buffer)).store = p.store := p.store_getReport buffer
    rw [same]
    exact ⟨settled, rfl⟩
  | touch => exact ⟨settled, rfl⟩

theorem settled_meets (settled : p.store.medium.Settled) (contacts : List Contact) :
    (p.meets contacts).store.medium.Settled := by
  induction contacts using List.reverseRecOn with
  | nil => exact settled
  | append_singleton contacts contact ih =>
    rw [meets_concat]
    exact (flash_meet ih contact).1

/-- A chip that held the image at first holds it as it was after the last contact that asked for a flush. -/
theorem flash_meets (settled : p.store.medium.Settled)
    (first : p.store.medium.flash.image = p.store.medium.image) (contacts : List Contact) :
    (p.meets contacts).store.medium.flash.image =
      (p.meets (contacts.rdropWhile (!·.asksForFlush))).store.medium.image := by
  induction contacts using List.reverseRecOn with
  | nil => exact first
  | append_singleton contacts contact ih =>
    obtain ⟨-, image⟩ := flash_meet (settled_meets settled contacts) contact
    rw [meets_concat, image]
    by_cases asks : contact.asksForFlush = true
    · have last : (contacts ++ [contact]).rdropWhile (!·.asksForFlush) = contacts ++ [contact] :=
        List.rdropWhile_concat_neg _ _ _ (by simp only [asks]; decide)
      rw [if_pos asks, last, meets_concat]
    · have quiet : (contacts ++ [contact]).rdropWhile (!·.asksForFlush) =
          contacts.rdropWhile (!·.asksForFlush) :=
        List.rdropWhile_concat_pos _ _ _ (by simp only [asks]; decide)
      rw [if_neg asks, quiet]
      exact ih

/-- After any contacts the chip holds the image as it was after the last report that asked for a write or a
commit, refused or not, and without such a report the image that was found at first. So this is what is found
again after a loss of power. -/
theorem flash_is_snapshot {f : Flash} (works : f.faults = {}) (contacts : List Contact) :
    (new (.ofFlash f)).store.medium.image = f.image ∧
    ((new (.ofFlash f)).meets contacts).store.medium.flash.image =
      ((new (.ofFlash f)).meets (contacts.rdropWhile (!·.asksForFlush))).store.medium.image ∧
    (Store.ofFlash ((new (.ofFlash f)).meets contacts).store.medium.flash).medium.image =
      ((new (.ofFlash f)).meets (contacts.rdropWhile (!·.asksForFlush))).store.medium.image := by
  have settled : (new (.ofFlash f)).store.medium.Settled := FlashStore.settled_load works
  have snapshot := flash_meets settled (settled.clean rfl) contacts
  refine ⟨FlashStore.image_load (congrArg FlashFaults.read works), snapshot, ?_⟩
  have works' := (settled_meets settled contacts).works
  rw [← snapshot]
  exact FlashStore.image_load (congrArg FlashFaults.read works')

/-- A byte is appended, a reply is fetched, a write is refused, and another byte is appended. -/
theorem flash_is_snapshot_refused :
    (Flash.ofScript [0x00]).faults = {} ∧
    (new (.ofFlash (.ofScript [0x00]))).store.medium.image = (Flash.ofScript [0x00]).image ∧
    ((new (.ofFlash (.ofScript [0x00]))).meets
      [.report [0x03, 0x01, 0x00, 0x07], .fetch [], .report [0x01, 0x00, 0x02, 0x01],
        .report [0x03, 0x01, 0x00, 0x08]]).store.medium.flash.image =
      ((new (.ofFlash (.ofScript [0x00]))).meets
        [.report [0x03, 0x01, 0x00, 0x07], .fetch [],
          .report [0x01, 0x00, 0x02, 0x01]]).store.medium.image ∧
    (Store.ofFlash ((new (.ofFlash (.ofScript [0x00]))).meets
      [.report [0x03, 0x01, 0x00, 0x07], .fetch [], .report [0x01, 0x00, 0x02, 0x01],
        .report [0x03, 0x01, 0x00, 0x08]]).store.medium.flash).medium.image =
      ((new (.ofFlash (.ofScript [0x00]))).meets
        [.report [0x03, 0x01, 0x00, 0x07], .fetch [],
          .report [0x01, 0x00, 0x02, 0x01]]).store.medium.image :=
  have works : (Flash.ofScript [0x00]).faults = {} := rfl
  ⟨works, flash_is_snapshot works
    [.report [0x03, 0x01, 0x00, 0x07], .fetch [], .report [0x01, 0x00, 0x02, 0x01],
      .report [0x03, 0x01, 0x00, 0x08]]⟩

end Autotype.Programmer
