import Autotype.Proofs.Committed
import Autotype.Proofs.Journal

/-!
# What an accepted commit vouches for

A commit is accepted when the checksum in its header is right, but there are two checksums it can be
compared with. That of the cells vouches for the bytes that will be run. That of the session is the checksum of
the bytes that were appended, and neither is their number compared with the length that is committed, nor are
the cells looked at. So such a commit vouches for the bytes in the cells only as far as these have the same
checksum (`Conversation.vouches_iff_scriptLeft`).
-/

namespace Autotype

namespace Store

variable {μ : Type} [Medium μ]

theorem verify_iff {s : Store μ} {n : Nat} {checksum : UInt16} (positive : 0 < n)
    (fits : n ≤ maxScript) :
    s.verify n checksum = true ↔ Checksum.ofBytes (s.script n) = checksum := by
  simp only [verify, scriptChecksum, positive, fits, decide_true, Bool.and_self, Bool.true_and,
    beq_iff_eq]

theorem script_commit [LawfulMedium μ] {s : Store μ} (fits : headerSize ≤ s.size) (h : Header)
    (n : Nat) : (s.commit h).script n = s.script n :=
  List.map_congr_left fun i _ => scriptByte_commit fits h i

end Store

/-- As long as no cell of the appended bytes was given another byte, the script region begins with
them. -/
theorem History.Matches.script_eq {μ : Type} [Medium μ] {h : History} {s : Session} {store : Store μ}
    (known : h.Matches s store)
    (own : ∀ i, (inside : i < h.appended.length) → ∀ v, h.overwritten (scriptStart + i) = some v →
      v = h.appended[i]) :
    store.script h.appended.length = h.appended := by
  refine Store.script_eq fun i inside => ?_
  rw [known.scriptCell inside]
  cases written : h.overwritten (scriptStart + i) with
  | none => rfl
  | some v => exact own i inside v written

namespace Conversation

variable {μ : Type} [Medium μ]

/-- Whether a store that has taken over a header vouches for the bytes in its cells. -/
def Vouches (c : Conversation μ) : Prop :=
  c.store.verify c.store.header.length.toNat c.store.header.checksum = true

theorem hear_commit {c : Conversation μ} {report : Bytes} {fromStore : Bool} {header : Header}
    (asked : Request.ofReport? report = some (.commit fromStore header))
    (accepted : (c.session.receive c.store report).reply = .ok) :
    (c.hear report).store = c.store.commit header ∧ 0 < header.length.toNat ∧
      header.length.toNat ≤ maxScript ∧
      (if fromStore then c.store.scriptChecksum header.length.toNat else c.session.checksum) =
        header.checksum := by
  have effect := Session.effect_receive c.session c.store report
  rw [asked] at effect
  unfold hear
  generalize c.session.receive c.store report = outcome at effect accepted ⊢
  cases effect with
  | refused => cases accepted
  | committed positive fits agrees => exact ⟨rfl, positive, fits, agrees⟩
  | mismatched => cases accepted

theorem vouches_hear_iff [LawfulMedium μ] {c : Conversation μ} (size : c.store.size = storeSize)
    {report : Bytes} {fromStore : Bool} {header : Header}
    (asked : Request.ofReport? report = some (.commit fromStore header))
    (accepted : (c.session.receive c.store report).reply = .ok) :
    (c.hear report).Vouches ↔ Checksum.ofBytes (c.store.script header.length.toNat) = header.checksum := by
  obtain ⟨store, positive, fits, -⟩ := hear_commit asked accepted
  have cells : headerSize ≤ c.store.size := by
    have numbers := geometry
    omega
  rw [Vouches, store, Store.header_commit, Store.verify_iff positive fits, Store.script_commit cells]

/-- The bytes that these reports leave at the beginning of the script region: what they put to each cell last,
or what the medium held there at first. -/
def scriptLeft (m : μ) (reports : List Bytes) (length : Nat) : Bytes :=
  (List.range length).map fun i =>
    (Put.latest? (journal m reports) (scriptStart + i)).getD (Medium.read m (scriptStart + i))

theorem script_after [LawfulMedium μ] {m : μ} (size : Medium.size m = storeSize) (reports : List Bytes)
    {length : Nat} (fits : length ≤ maxScript) :
    (after m reports).store.script length = scriptLeft m reports length := by
  refine List.map_congr_left fun i inside => readByte_after size reports ?_
  have before := List.mem_range.mp inside
  have numbers := geometry
  omega

/-- After any reports, a commit that is accepted takes its header over, and vouches for the bytes in the cells
just if it asked for their checksum, or if the bytes that the reports left there, as many as it announces, have
the checksum of the bytes appended, which is the one that it was compared with. They have it if they are the
bytes appended: as many, and none of them overwritten by its address with another one since. -/
theorem vouches_iff_scriptLeft [LawfulMedium μ] {m : μ} (size : Medium.size m = storeSize)
    (reports : List Bytes) {report : Bytes} {fromStore : Bool} {header : Header}
    (asked : Request.ofReport? report = some (.commit fromStore header))
    (accepted : ((after m reports).session.receive (after m reports).store report).reply = .ok) :
    ((after m reports).hear report).store.header = header ∧
    (((after m reports).hear report).Vouches ↔
      fromStore = true ∨
        Checksum.ofBytes (scriptLeft m reports header.length.toNat) =
          Checksum.ofBytes (after m reports).history.appended) ∧
    (fromStore = false → header.checksum = Checksum.ofBytes (after m reports).history.appended) ∧
    (header.length.toNat = (after m reports).history.appended.length →
      (∀ i, (inside : i < (after m reports).history.appended.length) → ∀ v,
        (after m reports).history.overwritten (scriptStart + i) = some v →
          v = (after m reports).history.appended[i]) →
      ((after m reports).hear report).Vouches) := by
  have known := matches_after size reports
  obtain ⟨store, -, fits, agrees⟩ := hear_commit asked accepted
  have exactly := vouches_hear_iff known.size asked accepted
  have left := script_after size reports fits
  have running : fromStore = false → header.checksum = Checksum.ofBytes (after m reports).history.appended := by
    rintro rfl
    exact agrees.symm.trans known.checksum
  have either : ((after m reports).hear report).Vouches ↔
      fromStore = true ∨
        Checksum.ofBytes (scriptLeft m reports header.length.toNat) =
          Checksum.ofBytes (after m reports).history.appended := by
    rw [exactly]
    cases fromStore with
    | true => exact iff_of_true agrees (.inl rfl)
    | false => rw [left, running rfl, or_iff_right Bool.false_ne_true]
  refine ⟨by rw [store, Store.header_commit], either, running, fun whole own => either.mpr (.inr ?_)⟩
  rw [← left, whole, known.script_eq own]

/-- One byte is appended and committed, after a first attempt with too many bytes was forgotten. -/
theorem vouches_iff_scriptLeft_append :
    Medium.size ({} : Memory) = storeSize ∧
    Request.ofReport? [0x05, 0x00, 0x1A, 0x00, 0x00, 0x00, 0x01, 0x00, 0xF0, 0xE1] =
      some (.commit false ⟨0x1A, 0, 0, 1, 0xE1F0⟩) ∧
    scriptLeft ({} : Memory) [[0x03, 0x02], [0x04], [0x03, 0x01]] 1 = [0x00] ∧
    (after ({} : Memory) [[0x03, 0x02], [0x04], [0x03, 0x01]]).history.appended = [0x00] ∧
    ((after ({} : Memory) [[0x03, 0x02], [0x04], [0x03, 0x01]]).hear
      [0x05, 0x00, 0x1A, 0x00, 0x00, 0x00, 0x01, 0x00, 0xF0, 0xE1]).Vouches := by
  have asked : Request.ofReport? [0x05, 0x00, 0x1A, 0x00, 0x00, 0x00, 0x01, 0x00, 0xF0, 0xE1] =
      some (.commit false ⟨0x1A, 0, 0, 1, 0xE1F0⟩) := by decide +kernel
  have left : scriptLeft ({} : Memory) [[0x03, 0x02], [0x04], [0x03, 0x01]] 1 = [0x00] := by
    decide +kernel
  have appended :
      (after ({} : Memory) [[0x03, 0x02], [0x04], [0x03, 0x01]]).history.appended = [0x00] := by
    decide +kernel
  have vouches := (vouches_iff_scriptLeft (m := ({} : Memory)) (by decide)
    [[0x03, 0x02], [0x04], [0x03, 0x01]] asked (by decide +kernel)).2.1
  refine ⟨by decide, asked, left, appended, vouches.mpr (.inr ?_)⟩
  exact congrArg Checksum.ofBytes (left.trans appended.symm)

/-- A commit of two bytes is accepted with the checksum of the one byte that was appended, over an erased cell
behind it. -/
theorem not_vouches_beyond_appended :
    ¬ ∀ m : Memory, Medium.size m = storeSize → ∀ reports report fromStore header,
      Request.ofReport? report = some (.commit fromStore header) →
      ((after m reports).session.receive (after m reports).store report).reply = .ok →
      ((after m reports).hear report).Vouches := by
  intro vouches
  have wrong := vouches {} (by decide) [[0x03, 0x01]]
    [0x05, 0x00, 0x1A, 0x00, 0x00, 0x00, 0x02, 0x00, 0xF0, 0xE1] false ⟨0x1A, 0, 0, 2, 0xE1F0⟩
    (by decide +kernel) (by decide +kernel)
  revert wrong
  unfold Vouches
  decide +kernel

end Conversation

end Autotype
