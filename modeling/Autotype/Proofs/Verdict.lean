import Autotype.Proofs.Capacity
import Autotype.Proofs.Ledger
import Autotype.Proofs.Overlay

/-!
# The verdict on a commit

A commit whose length can be that of a script is decided by one comparison of checksums, and in either case
the session starts anew. If they agree, the header is taken over as a whole; otherwise the length is cleared,
in the cells and in the header at hand, and nothing else. Whatever the medium and whatever the two headers
were before, no script is left then for whoever opens the store (`Store.hasScript_mount_invalidate`).
-/

namespace Autotype

/-- A header with a possible length is that of a script just if its version is the current one. -/
theorem Header.isValid_iff_version {h : Header} (positive : 0 < h.length.toNat)
    (fits : h.length.toNat ≤ maxScript) : h.isValid = true ↔ h.version = Header.currentVersion := by
  rw [Header.isValid_iff]
  exact ⟨And.left, fun current => ⟨current, positive, fits⟩⟩

namespace Store

variable {μ : Type} [Medium μ]

theorem length_storedHeader (s : Store μ) :
    s.storedHeader.length = Word.ofBytes (s.readByte 4) (s.readByte 5) := by
  simp only [storedHeader, Header.decode, Vector.getElem_ofFn]

variable [LawfulMedium μ]

/-- A store whose length was cleared holds no script when it is opened again. Where the medium has no cell for
the high byte of the length, it reads as erased, and the length is too large. -/
theorem hasScript_mount_invalidate (s : Store μ) : (mount s.invalidate.medium).hasScript = false := by
  have low : s.invalidate.readByte 4 = if 4 < s.size then 0x00 else erased :=
    s.readByte_writeBlock_add 4 (Word.bytes 0) (show 0 < 2 by decide)
  have high : s.invalidate.readByte 5 = if 5 < s.size then 0x00 else erased :=
    s.readByte_writeBlock_add 4 (Word.bytes 0) (show 1 < 2 by decide)
  show s.invalidate.storedHeader.isValid = false
  rw [Bool.eq_false_iff, ne_eq, Header.isValid_iff, length_storedHeader, Word.toNat_ofBytes]
  rintro ⟨-, positive, fits⟩
  by_cases cells : 5 < s.size
  · rw [low, high, if_pos (by omega), if_pos cells] at positive
    exact Nat.lt_irrefl 0 positive
  · rw [high, if_neg cells] at fits
    have erasedHigh : erased.toNat = 255 := rfl
    have numbers := geometry
    omega

theorem storedHeader_commit {s : Store μ} (fits : headerSize ≤ s.size) (h : Header) :
    (s.commit h).storedHeader = h := by
  rw [storedHeader_eq_iff, readByte_commit fits]
  intro a inside
  have long : h.encode.toList.length = headerSize := Vector.length_toList
  rw [overlaid_zero (by omega), Vector.getElem_toList]

end Store

namespace Session

/-- Whatever the session, the medium and the header that the store goes by: a commit with a possible length
starts the session anew, and the wish to leave stands as it did. If the checksum asked for, that of the cells
or that of the session, differs from the one expected, it is refused for that, there is no script any more,
neither for the store nor for whoever opens it again, and the medium keeps all it holds but the two bytes of
the length. If it agrees, then on a medium of full size the commit is accepted, the store goes by the header
and its cells hold it, the medium keeps all that it holds behind them, and there is a script, for the store
and for whoever opens it again, just if the version is the current one. -/
theorem commit_all_or_nothing {μ : Type} [Medium μ] [LawfulMedium μ] (s : Session) (store : Store μ)
    {report : Bytes} {fromStore : Bool} {header : Header}
    (asked : Request.ofReport? report = some (.commit fromStore header))
    (positive : 0 < header.length.toNat) (fits : header.length.toNat ≤ maxScript) :
    let actual := if fromStore then store.scriptChecksum header.length.toNat else s.checksum
    let after := s.receive store report
    after.session = { offset := 0, checksum := 0xFFFF, exitRequested := s.exitRequested } ∧
    (actual ≠ header.checksum →
      after.reply = .refused .checksumMismatch ∧
      after.store.hasScript = false ∧ (Store.mount after.store.medium).hasScript = false ∧
      ∀ a, a ≠ 4 → a ≠ 5 → Medium.read after.store.medium a = Medium.read store.medium a) ∧
    (actual = header.checksum → store.size = storeSize →
      after.reply = .ok ∧ after.store.header = header ∧
      (∀ a, (inside : a < headerSize) → after.store.readByte a = header.encode[a]) ∧
      (∀ a, headerSize ≤ a → Medium.read after.store.medium a = Medium.read store.medium a) ∧
      (after.store.hasScript = true ↔ header.version = Header.currentVersion) ∧
      ((Store.mount after.store.medium).hasScript = true ↔ header.version = Header.currentVersion)) := by
  intro actual after
  have decided : after = if actual = header.checksum then ⟨.ok, s.restarted, store.commit header⟩
      else ⟨.refused .checksumMismatch, s.restarted, store.invalidate⟩ :=
    (receive_eq asked).trans (commit_of_fits positive fits)
  by_cases agrees : actual = header.checksum
  · rw [decided, if_pos agrees]
    refine ⟨rfl, fun differs => absurd agrees differs, fun _ size => ?_⟩
    have cells : headerSize ≤ store.size := by
      rw [size]
      decide
    have stored := store.storedHeader_commit cells header
    refine ⟨rfl, rfl, Store.storedHeader_eq_iff.mp stored, ?_, header.isValid_iff_version positive fits, ?_⟩
    · intro a behind
      refine Store.read_writeBlock_of_outside (.inr ?_)
      rwa [Vector.length_toList, Nat.zero_add]
    · show (store.commit header).storedHeader.isValid = true ↔ _
      rw [stored]
      exact header.isValid_iff_version positive fits
  · rw [decided, if_neg agrees]
    refine ⟨rfl, fun _ => ?_, fun same => absurd same agrees⟩
    refine ⟨rfl, store.hasScript_invalidate, store.hasScript_mount_invalidate, ?_⟩
    intro a notLow notHigh
    refine Store.read_writeBlock_of_outside ?_
    show a < 4 ∨ 4 + 2 ≤ a
    omega

/-- Two commits of a script of one byte that was written, with its header, by address, so that the store at
hand does not know of it. The first asks for the checksum of the session, which is another one, and the second
for that of the cells. -/
theorem commit_all_or_nothing_unknownScript :
    let s : Session := { offset := 1, checksum := 0x1D0F, exitRequested := true }
    let store := (Store.mount ({} : Memory)).writeBlock 0 [0x1A, 0x00, 0x00, 0x00, 0x01, 0x00, 0xF0, 0xE1, 0x00]
    let wrong := s.receive store [0x05, 0x00, 0x1A, 0x00, 0x00, 0x00, 0x01, 0x00, 0xF0, 0xE1]
    let right := s.receive store [0x05, 0x01, 0x1A, 0x07, 0x00, 0x00, 0x01, 0x00, 0xF0, 0xE1]
    store.hasScript = false ∧ (Store.mount store.medium).hasScript = true ∧
    wrong.reply = .refused .checksumMismatch ∧ (Store.mount wrong.store.medium).hasScript = false ∧
    Medium.read wrong.store.medium 6 = 0xF0 ∧
    right.reply = .ok ∧ right.store.header = ⟨0x1A, 0x07, 0, 1, 0xE1F0⟩ ∧ right.store.hasScript = true := by
  intro s store wrong right
  have unknown : store.hasScript = false ∧ (Store.mount store.medium).hasScript = true := by decide +kernel
  have asked : Request.ofReport? [0x05, 0x00, 0x1A, 0x00, 0x00, 0x00, 0x01, 0x00, 0xF0, 0xE1] =
      some (.commit false ⟨0x1A, 0, 0, 1, 0xE1F0⟩) := by decide +kernel
  have asked' : Request.ofReport? [0x05, 0x01, 0x1A, 0x07, 0x00, 0x00, 0x01, 0x00, 0xF0, 0xE1] =
      some (.commit true ⟨0x1A, 0x07, 0, 1, 0xE1F0⟩) := by decide +kernel
  have checksum : Medium.read store.medium 6 = 0xF0 := by decide +kernel
  obtain ⟨-, refuse, -⟩ := commit_all_or_nothing s store asked (by decide) (by decide)
  obtain ⟨refused, -, none, kept⟩ := refuse (by decide)
  obtain ⟨-, -, accept⟩ := commit_all_or_nothing s store asked' (by decide) (by decide)
  obtain ⟨accepted, header, -, -, script, -⟩ := accept (by decide +kernel) (by decide +kernel)
  exact ⟨unknown.1, unknown.2, refused, none, (kept 6 (by decide) (by decide)).trans checksum, accepted, header,
    script.mpr rfl⟩

end Session

end Autotype
