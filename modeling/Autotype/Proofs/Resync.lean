import Autotype.Proofs.Coherence
import Autotype.Proofs.Verdict

/-!
# A commit brings header and cells together

Whatever a store took for its header, and whatever the cells of the header held, after a commit both are the
header committed (`Store.Synced`), which needs no more than that the medium has these cells. It stays so as
long as nothing is put to them by address, also if the header is read again; reads and flushes do no harm.
Giving up the script then clears the length in both places and nothing else (`Store.commit_resyncs`).
-/

namespace Autotype

/-- What can be done with a store between two commits, apart from reading it, which leaves it as it is. -/
inductive StoreStep where
  | writeByte (a : Nat) (v : UInt8)
  | writeBlock (start : Nat) (bytes : Bytes)
  | flush
  | refresh

/-- Whether a step puts nothing to the first `n` addresses. -/
def StoreStep.StaysAbove (n : Nat) : StoreStep → Prop
  | .writeByte a _ => n ≤ a
  | .writeBlock start bytes => bytes = [] ∨ n ≤ start
  | .flush | .refresh => True

instance (n : Nat) : DecidablePred (StoreStep.StaysAbove n)
  | .writeByte a _ => inferInstanceAs (Decidable (n ≤ a))
  | .writeBlock start bytes => inferInstanceAs (Decidable (bytes = [] ∨ n ≤ start))
  | .flush | .refresh => .isTrue trivial

namespace Store

variable {μ : Type} [Medium μ]

def step (s : Store μ) : StoreStep → Store μ
  | .writeByte a v => s.writeByte a v
  | .writeBlock start bytes => s.writeBlock start bytes
  | .flush => s.flush
  | .refresh => s.refresh

/-- The store after these steps, the first one first. -/
def steps (s : Store μ) (all : List StoreStep) : Store μ :=
  all.foldl step s

/-- Whether a store goes by a header that its cells hold, too. -/
structure Synced (s : Store μ) (h : Header) : Prop where
  header : s.header = h
  stored : s.storedHeader = h
  cells : headerSize ≤ s.size

namespace Synced

variable {s t : Store μ} {h : Header}

theorem coherent (known : s.Synced h) : s.Coherent :=
  coherent_iff_storedHeader.mpr (known.stored.trans known.header.symm)

/-- What the store says of its script, as long as it goes by this header. -/
theorem hasScript_iff (known : s.Synced h) :
    s.hasScript = true ↔ h.version = Header.currentVersion ∧ 0 < h.length.toNat ∧
      h.length.toNat ≤ maxScript := by
  rw [hasScript, known.header, Header.isValid_iff]

/-- Nothing changes for the header if its cells and what the store takes for it stay the same. -/
theorem of_cells (known : s.Synced h) (header : t.header = s.header) (size : t.size = s.size)
    (same : ∀ a < headerSize, t.readByte a = s.readByte a) : t.Synced h where
  header := header.trans known.header
  stored := storedHeader_eq_iff.mpr fun a inside =>
    (same a inside).trans (storedHeader_eq_iff.mp known.stored a inside)
  cells := size ▸ known.cells

variable [LawfulMedium μ]

theorem commit (room : headerSize ≤ s.size) (h : Header) : (s.commit h).Synced h where
  header := rfl
  stored := storedHeader_commit room h
  cells := (s.size_commit h).symm ▸ room

theorem step (known : s.Synced h) {one : StoreStep} (above : one.StaysAbove headerSize) :
    (s.step one).Synced h := by
  cases one with
  | writeByte a v =>
    refine known.of_cells (header_writeByte s a v) (size_writeByte s a v) fun b inside => ?_
    have other : a ≠ b := Nat.ne_of_gt (Nat.lt_of_lt_of_le inside above)
    exact (readByte_writeByte s a b v).trans (if_neg fun there => other there.1)
  | writeBlock start bytes =>
    refine known.of_cells (header_writeBlock s start bytes) (size_writeBlock s start bytes) fun b inside => ?_
    rcases above with rfl | above
    · rfl
    · exact (readByte_writeBlock s start b bytes).trans (dif_neg fun there => by omega)
  | flush => exact known.of_cells s.header_flush s.size_flush fun b _ => congrFun s.readByte_flush b
  | refresh => exact ⟨known.stored, known.stored, known.cells⟩

theorem steps (known : s.Synced h) {all : List StoreStep}
    (above : ∀ one ∈ all, one.StaysAbove headerSize) : (s.steps all).Synced h := by
  induction all generalizing s with
  | nil => exact known
  | cons one all ih =>
    have next := known.step (above one List.mem_cons_self)
    exact ih next fun other among => above other (List.mem_cons_of_mem one among)

theorem invalidate (known : s.Synced h) : s.invalidate.Synced { h with length := 0 } where
  header := by rw [← known.header]; rfl
  stored := by
    rw [storedHeader_eq_iff, readByte_invalidate known.cells]
    intro a inside
    exact h.encode_cleared (storedHeader_eq_iff.mp known.stored) inside
  cells := s.size_invalidate.symm ▸ known.cells

/-- Only the two cells of the length are cleared. -/
theorem read_invalidate (known : s.Synced h) (a : Nat) :
    Medium.read s.invalidate.medium a = if a = 4 ∨ a = 5 then 0x00 else Medium.read s.medium a := by
  by_cases cleared : a = 4 ∨ a = 5
  · have cells := known.cells
    have numbers := geometry
    have inside : a < s.invalidate.size := by
      rw [size_invalidate]
      omega
    rw [if_pos cleared, ← readByte_of_inside inside, readByte_invalidate cells]
    rcases cleared with rfl | rfl <;> rfl
  · rw [if_neg cleared]
    refine read_writeBlock_of_outside ?_
    show a < 4 ∨ 4 + 2 ≤ a
    omega

end Synced

omit [Medium μ] in
/-- The longest delay is far from the end of the words that milliseconds are counted in. -/
theorem toNat_initialDelay {s : Store μ} (valid : s.hasScript = true) :
    s.initialDelay.toNat = s.header.delay.toNat * 100 := by
  have short := s.header.delay.toNat_lt
  rw [initialDelay, if_pos valid, UInt32.toNat_mul, UInt16.toNat_toUInt32]
  exact Nat.mod_eq_of_lt (show s.header.delay.toNat * 100 < 2 ^ 32 by omega)

/-- Whatever a store goes by and whatever its cells hold, if only its medium has the cells of the header: after
a commit, and any steps that put nothing to these cells, the store goes by the header committed, its cells hold
it, and whoever opens it again finds the same. There is a script just if the version is the current one and
the length fits, and then length, flags and delay are those of the header; otherwise they are zero. Giving up
the script clears the length, in the header and in its two cells, and nothing else, and then there is no
script, for the store or for whoever opens it again. -/
theorem commit_resyncs [LawfulMedium μ] (s : Store μ) (h : Header)
    (room : headerSize ≤ Medium.capacity s.medium) {all : List StoreStep}
    (above : ∀ one ∈ all, one.StaysAbove headerSize) :
    let t := (s.commit h).steps all
    t.header = h ∧ t.storedHeader = h ∧ t.Coherent ∧
    (t.hasScript = true ↔
      h.version = Header.currentVersion ∧ 0 < h.length.toNat ∧ h.length.toNat ≤ maxScript) ∧
    (t.hasScript = true →
      t.scriptLength = h.length ∧ t.flags = h.flags ∧ t.initialDelay.toNat = h.delay.toNat * 100) ∧
    (t.hasScript = false → t.scriptLength = 0 ∧ t.flags = 0 ∧ t.initialDelay = 0) ∧
    t.invalidate.header = { h with length := 0 } ∧
    (∀ a, Medium.read t.invalidate.medium a = if a = 4 ∨ a = 5 then 0x00 else Medium.read t.medium a) ∧
    t.invalidate.hasScript = false ∧ (mount t.invalidate.medium).hasScript = false := by
  intro t
  have cells : headerSize ≤ s.size := Nat.le_min.mpr ⟨room, by decide⟩
  have known : t.Synced h := (Synced.commit cells h).steps above
  refine ⟨known.header, known.stored, known.coherent, known.hasScript_iff, fun valid => ?_, fun invalid => ?_,
    known.invalidate.header, known.read_invalidate, t.hasScript_invalidate, t.hasScript_mount_invalidate⟩
  · rw [scriptLength, flags, if_pos valid, if_pos valid, toNat_initialDelay valid, known.header]
    exact ⟨rfl, rfl, rfl⟩
  · have none : ¬t.hasScript = true := ne_true_of_eq_false invalid
    rw [scriptLength, flags, initialDelay, if_neg none, if_neg none, if_neg none]
    exact ⟨rfl, rfl, rfl⟩

/-- A store on a medium that has no more cells than the header takes. It goes by another header than the cells
hold, which are erased. -/
def astray : Store Memory where
  medium := { capacity := 8 }
  header := { version := 0x1A, flags := 0x01, delay := 2, length := 3, checksum := 4 }

theorem commit_resyncs_astray :
    let h : Header := { version := 0x1A, flags := 0x07, delay := 0xFFFF, length := 503, checksum := 0x1234 }
    let all : List StoreStep := [.writeBlock 8 [0x2A, 0x2B], .refresh, .writeByte 0xFFFF 0x00, .flush]
    ¬astray.Coherent ∧ headerSize ≤ Medium.capacity astray.medium ∧
    (∀ one ∈ all, one.StaysAbove headerSize) ∧
    ((astray.commit h).steps all).storedHeader = h ∧
    ((astray.commit h).steps all).initialDelay.toNat = 6553500 ∧
    ((astray.commit h).steps all).invalidate.header = { h with length := 0 } := by
  intro h all
  have room : headerSize ≤ Medium.capacity astray.medium := by decide
  have above : ∀ one ∈ all, one.StaysAbove headerSize := by decide
  obtain ⟨-, stored, -, valid, fields, -, cleared, -⟩ := commit_resyncs astray h room above
  obtain ⟨-, -, delay⟩ := fields (valid.mpr (by decide))
  exact ⟨by decide +kernel, room, above, stored, delay.trans (by decide), cleared⟩

end Store

end Autotype
