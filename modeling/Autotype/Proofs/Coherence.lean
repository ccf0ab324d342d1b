import Autotype.Proofs.History
import Autotype.Store.Memory

/-!
# The header in the cells and the header at hand

A store reads its header once, when it is opened, and from then on knows it by heart. Commits keep the
two in step, but a write by address may reach the first cells of the store as well as any others, and
nobody reads them again. What the store then says of its script is what the cells say just as long as
no cell of the header holds anything but the header's own byte.
-/

namespace Autotype

namespace Store

variable {μ : Type} [Medium μ]

/-- Whether a store says of its script what it would say if it were opened anew. -/
structure Coherent (s : Store μ) : Prop where
  header : s.header = (mount s.medium).header
  hasScript : s.hasScript = (mount s.medium).hasScript
  scriptLength : s.scriptLength = (mount s.medium).scriptLength
  flags : s.flags = (mount s.medium).flags
  initialDelay : s.initialDelay = (mount s.medium).initialDelay

/-- All that a store says of its script comes from the header. -/
theorem coherent_iff_storedHeader {s : Store μ} : s.Coherent ↔ s.storedHeader = s.header := by
  constructor
  · intro coherent
    exact coherent.header.symm
  · intro stored
    have same : s.header = (mount s.medium).header := stored.symm
    refine ⟨same, ?_, ?_, ?_, ?_⟩
    · rw [hasScript, hasScript, same]
    · rw [scriptLength, scriptLength, hasScript, hasScript, same]
    · rw [flags, flags, hasScript, hasScript, same]
    · rw [initialDelay, initialDelay, hasScript, hasScript, same]

instance (s : Store μ) : Decidable s.Coherent :=
  decidable_of_iff _ coherent_iff_storedHeader.symm

end Store

variable {μ : Type} [Medium μ]

theorem History.Matches.coherent_iff {h : History} {s : Session} {store : Store μ}
    (known : h.Matches s store) :
    store.Coherent ↔ ∀ a, (inside : a < headerSize) → ∀ v, h.overwritten a = some v →
      v = store.header.encode[a] := by
  rw [Store.coherent_iff_storedHeader, Store.storedHeader_eq_iff]
  constructor
  · intro cells a inside v written
    rw [← cells a inside, known.headerCell inside, written, Option.getD_some]
  · intro own a inside
    rw [known.headerCell inside]
    cases written : h.overwritten a with
    | none => rfl
    | some v => exact own a inside v written

/-- After any reports, what the store says of its script is what the cells say just if no write by
address has left anything but the header's own byte in a cell of the header. -/
theorem Programmer.coherent_iff_overwritten [LawfulMedium μ] {m : μ}
    (size : Medium.size m = storeSize) (reports : List Bytes) :
    ((new (.mount m)).setReports reports).store.Coherent ↔
      ∀ a, (inside : a < headerSize) → ∀ v,
        ((new (.mount m)).history {} reports).overwritten a = some v →
          v = ((new (.mount m)).setReports reports).store.header.encode[a] :=
  (matches_setReports (.mount size) reports).coherent_iff

theorem Programmer.coherent_iff_overwritten_memory :
    Medium.size ({} : Memory) = storeSize ∧
    (((new (.mount ({} : Memory))).setReports [[0x01, 0x01, 0x00, 0x01, 0x00, 0xFF]]).store.Coherent ↔
      ∀ a, (inside : a < headerSize) → ∀ v,
        ((new (.mount ({} : Memory))).history {} [[0x01, 0x01, 0x00, 0x01, 0x00, 0xFF]]).overwritten a =
          some v →
        v = ((new (.mount ({} : Memory))).setReports
          [[0x01, 0x01, 0x00, 0x01, 0x00, 0xFF]]).store.header.encode[a]) :=
  ⟨by decide, coherent_iff_overwritten (by decide) _⟩

theorem History.note_fresh (h : History) {asked : Option Request} (reply : Reply) {a : Nat}
    (inside : a < headerSize)
    (above : ∀ address length payload, asked = some (.write address length payload) →
      headerSize ≤ address)
    (fresh : h.overwritten a = none) : (h.note asked reply).overwritten a = none := by
  unfold note
  split
  · next address length payload _ =>
    have outside := above address length payload rfl
    exact (overlaid_of_lt (by omega)).trans fresh
  · next length _ _ _ => exact overlaid_replicate fresh length
  · exact fresh
  · show overlaid h.overwritten 0 (.replicate headerSize none) a = none
    exact overlaid_replicate fresh headerSize
  · exact overlaid_replicate fresh 2
  · exact fresh

/-- As long as no write begins in the header, the store says what the cells say. -/
theorem Programmer.coherent_of_writes_above [LawfulMedium μ] {m : μ}
    (size : Medium.size m = storeSize) {reports : List Bytes}
    (above : ∀ report ∈ reports, ∀ address length payload,
      Request.ofReport? report = some (.write address length payload) → headerSize ≤ address) :
    ((new (.mount m)).setReports reports).store.Coherent := by
  have fresh : ∀ (p : Programmer μ) (h : History) (a : Nat), a < headerSize →
      h.overwritten a = none → (p.history h reports).overwritten a = none := by
    intro p h a inside none
    induction reports generalizing p h with
    | nil => exact none
    | cons report reports ih =>
      refine ih (fun r mem => above r (List.mem_cons_of_mem report mem)) _ _ ?_
      exact h.note_fresh _ inside (above report List.mem_cons_self) none
  rw [coherent_iff_overwritten size]
  intro a inside v written
  rw [fresh _ {} a inside rfl] at written
  cases written

/-- A header and a script of one byte, written by address, are there for whoever opens the store, but
not for the store at hand. -/
theorem Programmer.not_coherent_after_write :
    ¬ ∀ m : Memory, Medium.size m = storeSize → ∀ reports : List Bytes,
      ((new (.mount m)).setReports reports).store.Coherent := by
  intro coherent
  have after := coherent {} (by decide)
    [[0x01, 0x00, 0x00, 0x09, 0x00, 0x1A, 0x00, 0x00, 0x00, 0x01, 0x00, 0xF0, 0xE1, 0x00]]
  revert after
  decide +kernel

end Autotype
