import Autotype.Proofs.Draft
import Autotype.Proofs.Snapshot

/-!
# What outlasts a loss of power

A store in flash works on an image of itself, and without power only what the last flush brought to the
chip is left. A flush brings everything there, and whoever asks for a write or a commit gets one, even if it
is refused. So the chip holds what the store was like after the last such report (`lasting`), with all that
had been appended until then.
-/

namespace Autotype

namespace Programmer

/-- The reports up to the last one that asks for a flush. -/
def lasting : List Bytes → List Bytes
  | [] => []
  | report :: reports =>
    if (report :: reports).any asksForFlush then report :: lasting reports else []

theorem lasting_of_quiet {reports : List Bytes} (quiet : reports.any asksForFlush = false) :
    lasting reports = [] := by
  cases reports with
  | nil => rfl
  | cons report reports => rw [lasting, quiet, if_neg Bool.false_ne_true]

variable {p : Programmer FlashStore}

theorem lasting_concat (reports : List Bytes) (report : Bytes) :
    lasting (reports ++ [report]) =
      if asksForFlush report then reports ++ [report] else lasting reports := by
  induction reports with
  | nil => cases asks : asksForFlush report <;> simp [lasting, asks]
  | cons first reports ih =>
    rw [List.cons_append, lasting, ih, List.any_cons, List.any_append]
    by_cases asks : asksForFlush report = true
    · simp [asks]
    · simp [lasting, asks]

/-- Among reports the last contact that asks for a flush is the last report that does. -/
theorem rdropWhile_reports (reports : List Bytes) :
    (reports.map Contact.report).rdropWhile (!·.asksForFlush) = (lasting reports).map .report := by
  induction reports using List.reverseRecOn with
  | nil => rfl
  | append_singleton reports report ih =>
    rw [List.map_append, List.map_singleton, lasting_concat]
    by_cases asks : asksForFlush report = true
    · rw [if_pos asks, List.rdropWhile_concat_neg, List.map_append, List.map_singleton]
      simp only [Contact.asksForFlush, asks]
      decide
    · rw [if_neg asks, List.rdropWhile_concat_pos, ih]
      simp only [Contact.asksForFlush, asks]
      decide

theorem meets_reports (reports : List Bytes) : p.meets (reports.map .report) = p.setReports reports :=
  List.foldl_map

theorem Refuses.lasting {reports : List Bytes} (refuses : p.Refuses reports) :
    p.Refuses (lasting reports) := by
  induction reports generalizing p with
  | nil => trivial
  | cons report reports ih =>
    unfold Programmer.lasting
    split
    · exact ⟨refuses.1, ih refuses.2⟩
    · trivial

/-! ## After a loss of power -/

variable {f : Flash} {reports : List Bytes}

/-- What is found on the chip after any reports is what the store was like after the last of them that asked
for a flush. -/
theorem readByte_reopened (works : f.faults = {}) (opened : p.store = .ofFlash f) (reports : List Bytes) :
    (Store.ofFlash (p.setReports reports).store.medium.flash).readByte =
      (p.setReports (lasting reports)).store.readByte := by
  have settled : p.store.medium.Settled := by
    rw [opened]
    exact FlashStore.settled_load works
  have clean : p.store.medium.dirty = false := by
    rw [opened]
    rfl
  have settled' := settled_meets settled (reports.map .report)
  have image := flash_meets settled (settled.clean clean) (reports.map .report)
  rw [meets_reports] at settled'
  rw [rdropWhile_reports, meets_reports, meets_reports] at image
  exact Store.readByte_ofFlash settled'.works image

/-- If all writes and commits are refused, and not for a wrong checksum, the store found on the chip is what
the store was at first, but for what had been appended before the last of them. -/
theorem over_reopened (works : f.faults = {}) (opened : p.store = .ofFlash f)
    (refuses : p.Refuses reports) :
    (p.draft (fun _ => none) (lasting reports)).Over p.store
      (.ofFlash (p.setReports reports).store.medium.flash) := by
  have laid := over_setReports (.refl p.store) (Store.size_flashStore _) refuses.lasting
  have cells := readByte_reopened works opened reports
  have header : (Store.ofFlash (p.setReports reports).store.medium.flash).header = p.store.header := by
    have stored : p.store.storedHeader = p.store.header := by
      rw [opened, Store.header_ofFlash]
    rw [Store.header_ofFlash, Store.storedHeader_eq_iff]
    intro a inside
    rw [cells, laid.headerCell a inside]
    exact Store.storedHeader_eq_iff.mp stored a inside
  exact laid.congr (Store.size_flashStore _) (header.trans laid.header.symm) cells

/-- After such reports the header on the chip is what it was, and the committed script is still there just if
what had been appended before the last refused write or commit agrees with it. -/
theorem keeps_iff_lasting_draft (works : f.faults = {}) (opened : p.store = .ofFlash f)
    (script : p.store.hasScript = true)
    (verify : p.store.verify p.store.scriptLength.toNat p.store.header.checksum = true)
    (refuses : p.Refuses reports) :
    (Store.ofFlash (p.setReports reports).store.medium.flash).header = p.store.header ∧
    (p.store.Keeps (.ofFlash (p.setReports reports).store.medium.flash) ↔
      ∀ i < p.store.scriptLength.toNat, ∀ v, p.draft (fun _ => none) (lasting reports) i = some v →
        v = p.store.scriptByte i) := by
  have laid := over_reopened works opened refuses
  exact ⟨laid.header, laid.keeps_iff script verify⟩

/-- A programmer that has heard nothing yet, on a chip with a script of one byte. -/
def oneByteFlash : Programmer FlashStore :=
  new (.ofFlash (.ofScript [0x00]))

theorem oneByteFlash_holds :
    oneByteFlash.store.header = .ofScript [0x00] ∧ oneByteFlash.store.Holds [0x00] :=
  Store.holds_ofScript (by decide) (by decide)

/-- An address outside the store is refused, whatever is to be written there. -/
theorem receive_outside (s : Session) (store : Store FlashStore) :
    (s.receive store [0x01, 0x00, 0x02, 0x01]).reply = .refused .invalidAddress :=
  rfl

/-- The byte is appended again, and then a write is refused. -/
theorem keeps_iff_lasting_draft_oneByte :
    (Flash.ofScript [0x00]).faults = {} ∧ oneByteFlash.store = .ofFlash (.ofScript [0x00]) ∧
    oneByteFlash.store.hasScript = true ∧
    oneByteFlash.store.verify oneByteFlash.store.scriptLength.toNat oneByteFlash.store.header.checksum =
      true ∧
    oneByteFlash.Refuses [[0x03, 0x01, 0x00, 0x00], [0x01, 0x00, 0x02, 0x01]] ∧
    (Store.ofFlash (oneByteFlash.setReports
      [[0x03, 0x01, 0x00, 0x00], [0x01, 0x00, 0x02, 0x01]]).store.medium.flash).header =
        oneByteFlash.store.header ∧
    (oneByteFlash.store.Keeps (.ofFlash (oneByteFlash.setReports
        [[0x03, 0x01, 0x00, 0x00], [0x01, 0x00, 0x02, 0x01]]).store.medium.flash) ↔
      ∀ i < oneByteFlash.store.scriptLength.toNat, ∀ v,
        oneByteFlash.draft (fun _ => none)
          (lasting [[0x03, 0x01, 0x00, 0x00], [0x01, 0x00, 0x02, 0x01]]) i = some v →
        v = oneByteFlash.store.scriptByte i) := by
  obtain ⟨header, holds⟩ := oneByteFlash_holds
  have verify := holds.verify (congrArg Header.checksum header)
  have works : (Flash.ofScript [0x00]).faults = {} := rfl
  have opened : oneByteFlash.store = .ofFlash (.ofScript [0x00]) := rfl
  have refuses : oneByteFlash.Refuses [[0x03, 0x01, 0x00, 0x00], [0x01, 0x00, 0x02, 0x01]] :=
    ⟨by decide, fun _ => .inl (receive_outside _ _), trivial⟩
  exact ⟨works, opened, holds.valid, verify, refuses,
    keeps_iff_lasting_draft works opened holds.valid verify refuses⟩

/-- A refused write is enough to make a byte last that was appended before it. -/
theorem not_keeps_after_refused :
    ¬ ∀ f : Flash, f.faults = {} → ∀ p : Programmer FlashStore, p.store = .ofFlash f →
      p.store.hasScript = true →
      p.store.verify p.store.scriptLength.toNat p.store.header.checksum = true →
      ∀ reports : List Bytes, p.Refuses reports →
      p.store.Keeps (.ofFlash (p.setReports reports).store.medium.flash) := by
  intro keeps
  obtain ⟨header, holds⟩ := oneByteFlash_holds
  have verify := holds.verify (congrArg Header.checksum header)
  have works : (Flash.ofScript [0x00]).faults = {} := rfl
  have opened : oneByteFlash.store = .ofFlash (.ofScript [0x00]) := rfl
  have refuses : oneByteFlash.Refuses [[0x03, 0x01, 0x00, 0x02], [0x01, 0x00, 0x02, 0x01]] :=
    ⟨by decide, fun _ => .inl (receive_outside _ _), trivial⟩
  have kept := keeps _ works oneByteFlash opened holds.valid verify _ refuses
  have drafted : oneByteFlash.draft (fun _ => none)
      (lasting [[0x03, 0x01, 0x00, 0x02], [0x01, 0x00, 0x02, 0x01]]) 0 = some 0x02 := by
    decide +kernel
  have laid := over_reopened works opened refuses
  have inside : 0 < oneByteFlash.store.scriptLength.toNat := by
    rw [holds.scriptLength]
    decide
  have agrees := (laid.keeps_iff holds.valid verify).mp kept 0 inside 0x02 drafted
  rw [holds.scriptByte Nat.zero_lt_one] at agrees
  cases agrees

/-- Without a write or a commit, refused or not, a half upload is lost with the power. -/
theorem keeps_of_unflushed (works : f.faults = {}) (opened : p.store = .ofFlash f)
    (script : p.store.hasScript = true)
    (verify : p.store.verify p.store.scriptLength.toNat p.store.header.checksum = true)
    (appends : ∀ report ∈ reports, asksForFlush report = false) :
    p.store.Keeps (.ofFlash (p.setReports reports).store.medium.flash) := by
  have laid := over_reopened works opened (refuses_of_appends appends)
  rw [lasting_of_quiet (List.any_eq_false.mpr fun r mem => by rw [appends r mem]; exact Bool.false_ne_true)]
    at laid
  rw [laid.keeps_iff script verify]
  intro i inside v drafted
  cases drafted

end Programmer

end Autotype
