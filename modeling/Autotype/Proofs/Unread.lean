import Autotype.Proofs.Blocks
import Autotype.Proofs.Persistence

/-!
# Chips that could not be read

A store in flash counts as unchanged when it is opened, whether its chip could be read or not. If it could not,
the image is an erased one, and a write of erased cells changes nothing: as long as nothing else is written,
there is nothing to flush, and the chip keeps what it had. The first other byte makes the image differ, and from
then on a flush that goes well brings all of it to the chip. So what is found again after such a flush is the
image just if the chip was read, or was erased anyway, or some other byte was written (`Store.reopened_iff`).
-/

namespace Autotype

/-! ## Writes that reach the image -/

namespace Put

theorem at?_cons (start : Nat) (b : UInt8) (bs : Bytes) (a : Nat) :
    at? ⟨start, b :: bs⟩ a = if start = a then some b else at? ⟨start + 1, bs⟩ a := by
  unfold at?
  dsimp only
  by_cases here : start = a
  · rw [if_pos here, if_pos (Nat.le_of_eq here), here, Nat.sub_self, List.getElem?_cons_zero]
  · rw [if_neg here]
    by_cases behind : start + 1 ≤ a
    · obtain ⟨i, rfl⟩ := Nat.exists_eq_add_of_le behind
      have next : start + 1 + i - start = i + 1 := by omega
      rw [if_pos (by omega), if_pos behind, next, List.getElem?_cons_succ, Nat.add_sub_cancel_left]
    · rw [if_neg (by omega), if_neg behind]

theorem at?_add {put : Put} {i : Nat} (inside : i < put.bytes.length) :
    put.at? (put.start + i) = some put.bytes[i] := by
  rw [at?, if_pos (Nat.le_add_right _ i), Nat.add_sub_cancel_left, List.getElem?_eq_getElem inside]

end Put

namespace Store

section

variable {μ : Type} [Medium μ]

theorem medium_commit (s : Store μ) (h : Header) :
    (s.commit h).medium = (s.writeBlock 0 h.encode.toList).medium :=
  rfl

theorem medium_invalidate (s : Store μ) :
    s.invalidate.medium = (s.writeBlock Header.lengthOffset (Word.bytes 0)).medium :=
  rfl

end

/-- A block that is not there yet makes the image differ from what was flushed. -/
theorem dirty_writeBlock {s : Store FlashStore} {start a : Nat} {v : UInt8} {bs : Bytes}
    (inside : a < s.size) (there : Put.at? ⟨start, bs⟩ a = some v) (other : s.readByte a ≠ v) :
    (s.writeBlock start bs).medium.dirty = true := by
  induction bs generalizing start with
  | nil =>
    rw [Put.at?, List.getElem?_nil, ite_self] at there
    cases there
  | cons b bs ih =>
    -- the first byte is passed over, and the difference lies behind it, or it reaches the image
    by_cases same : start < s.size → s.readByte start = b
    · rw [writeBlock, writeByte_of_same same]
      have later : start ≠ a := by
        rintro rfl
        rw [Put.at?_cons, if_pos rfl, Option.some.injEq] at there
        exact other (there ▸ same inside)
      rw [Put.at?_cons, if_neg later] at there
      exact ih there
    · obtain ⟨within, differs⟩ := Classical.not_imp.mp same
      rw [readByte, if_pos within] at differs
      have written : s.writeByte start b = { s with medium := s.medium.write start b } :=
        if_pos ⟨within, differs⟩
      have kept := writeBlock_kept (P := fun m : FlashStore => m.dirty = true)
        (fun _ _ _ _ => rfl) (s := s.writeByte start b) (by rw [written]; rfl) (start + 1) bs
      exact kept

end Store

/-! ## Flushes that go well -/

namespace FlashStore

/-- Whether no operation of the chip that a flush calls would fail. -/
def Smooth (f : FlashStore) : Prop :=
  ∃ calls, f.flush.flash.calls = calls ++ f.flash.calls ∧ ∀ call ∈ calls, call.failed = false

/-- Whether the chip holds the image unless there is something to flush. -/
def InStep (f : FlashStore) : Prop :=
  f.dirty = false → f.flash.image = f.image

/-- Whether nothing was brought to an image that does not come from the chip, which still holds another one. -/
structure Untouched (f : FlashStore) (found : Cells storeSize) : Prop where
  image : f.image = .blank storeSize
  clean : f.dirty = false
  chip : f.flash.image = found

theorem calls_flush {f : FlashStore} (dirty : f.dirty = true) :
    f.flush.flash.calls =
      (if 0 < f.flash.faults.erase then [⟨.erase, true⟩]
        else [⟨.program, decide (0 < f.flash.faults.program)⟩, ⟨.erase, false⟩]) ++ f.flash.calls := by
  rw [FlashStore.flush, if_pos dirty]
  by_cases fails : 0 < f.flash.faults.erase
  · simp only [Flash.erase, fails, decide_true, Bool.not_true, if_true, List.singleton_append]
  · by_cases fails' : 0 < f.flash.faults.program
    · simp [Flash.erase, Flash.program, fails, fails']
    · simp [Flash.erase, Flash.program, fails, fails']

theorem smooth_iff (f : FlashStore) :
    f.Smooth ↔ (f.dirty = true → f.flash.faults.erase = 0 ∧ f.flash.faults.program = 0) := by
  constructor
  · rintro ⟨calls, called, fine⟩ dirty
    rw [calls_flush dirty] at called
    have same := (List.append_cancel_right called).symm
    by_cases fails : 0 < f.flash.faults.erase
    · rw [if_pos fails] at same
      have failed := fine ⟨.erase, true⟩ (same ▸ List.mem_singleton_self _)
      cases failed
    · rw [if_neg fails] at same
      have worked := fine ⟨.program, decide (0 < f.flash.faults.program)⟩ (same ▸ List.mem_cons_self)
      exact ⟨Nat.eq_zero_of_not_pos fails, Nat.eq_zero_of_not_pos (of_decide_eq_false worked)⟩
  · intro works
    cases dirty : f.dirty with
    | false =>
      refine ⟨[], ?_, fun call called => absurd called List.not_mem_nil⟩
      rw [FlashStore.flush, dirty]
      rfl
    | true =>
      obtain ⟨erases, programs⟩ := works dirty
      refine ⟨_, calls_flush dirty, ?_⟩
      rw [erases, programs]
      decide

theorem InStep.flush {f : FlashStore} (step : f.InStep) : f.flush.InStep := by
  have flushes := f.flushes_flush
  generalize f.flush = after at flushes ⊢
  cases flushes with
  | rests => exact step
  | unerased dirty | unprogrammed dirty => exact fun clean => absurd (dirty.symm.trans clean) Bool.noConfusion
  | persists _ _ _ _ image => exact fun _ => image

/-- Without a write there is nothing to flush. -/
theorem flush_of_clean {f : FlashStore} (clean : f.dirty = false) : f.flush = f := by
  rw [FlashStore.flush, clean]
  rfl

theorem clean_flush_of_smooth {f : FlashStore} (smooth : f.Smooth) : f.flush.dirty = false := by
  have flushes := f.flushes_flush
  have works := f.smooth_iff.mp smooth
  generalize f.flush = after at flushes ⊢
  cases flushes with
  | rests clean => exact clean
  | unerased dirty fails => exact absurd (works dirty).1 (Nat.ne_of_gt fails)
  | unprogrammed dirty _ fails => exact absurd (works dirty).2 (Nat.ne_of_gt fails)
  | persists => rfl

theorem image_flash_of_smooth {f : FlashStore} (step : f.InStep) (smooth : f.Smooth) :
    f.flush.flash.image = f.image := by
  cases dirty : f.dirty with
  | false => rw [flush_of_clean dirty, step dirty]
  | true =>
    obtain ⟨erases, programs⟩ := f.smooth_iff.mp smooth dirty
    exact image_flash_flush step erases programs

end FlashStore

/-! ## From the opening on -/

/-- What can change a store in flash, or its chip. -/
inductive StoreEvent where
  | write (start : Nat) (bytes : Bytes)
  | commit (header : Header)
  | invalidate
  /-- A flush, when so many operations of the chip are about to fail. -/
  | flush (faults : FlashFaults)

namespace StoreEvent

/-- What is written to the cells, if anything is. -/
def put? : StoreEvent → Option Put
  | .write start bytes => some ⟨start, bytes⟩
  | .commit header => some ⟨0, header.encode.toList⟩
  | .invalidate => some ⟨Header.lengthOffset, Word.bytes 0⟩
  | .flush _ => none

/-- Whether some cell is written with another byte than an erased cell has. -/
def Marks (event : StoreEvent) : Prop :=
  ∃ put, event.put? = some put ∧ ∃ a < storeSize, ∃ v, put.at? a = some v ∧ v ≠ erased

theorem not_marks_write {start : Nat} {bytes : Bytes} (empty : ∀ v ∈ bytes, v = erased) :
    ¬(write start bytes).Marks := by
  rintro ⟨put, written, a, -, v, there, other⟩
  cases written
  rw [Put.at?] at there
  split at there
  · exact other (empty v (List.mem_of_getElem? there))
  · cases there

end StoreEvent

/-- Whether a chip keeps up with a store that is opened on it, through these events: it can be read, or is
erased anyway, or some other byte than that of an erased cell is written. -/
def Flash.KeepsUp (f : Flash) (events : List StoreEvent) : Prop :=
  (f.faults.read = 0 ∨ f.image = .blank storeSize) ∨ ∃ event ∈ events, event.Marks

namespace Store

/-- A store when so many operations of its chip are about to fail. -/
def facing (s : Store FlashStore) (faults : FlashFaults) : Store FlashStore :=
  { s with medium := s.medium.facing faults }

def after (s : Store FlashStore) : StoreEvent → Store FlashStore
  | .write start bytes => s.writeBlock start bytes
  | .commit header => s.commit header
  | .invalidate => s.invalidate
  | .flush faults => (s.facing faults).flush

def afterAll (s : Store FlashStore) (events : List StoreEvent) : Store FlashStore :=
  events.foldl after s

theorem medium_after_of_put {s : Store FlashStore} {event : StoreEvent} {put : Put}
    (written : event.put? = some put) :
    (s.after event).medium = (s.writeBlock put.start put.bytes).medium := by
  cases event with
  | write start bytes =>
    cases written
    rfl
  | commit header =>
    rw [StoreEvent.put?, Option.some.injEq] at written
    rw [← written, after, medium_commit]
  | invalidate =>
    rw [StoreEvent.put?, Option.some.injEq] at written
    rw [← written, after, medium_invalidate]
  | flush => cases written

theorem inStep_after {s : Store FlashStore} (step : s.medium.InStep) (event : StoreEvent) :
    (s.after event).medium.InStep := by
  cases written : event.put? with
  | some put =>
    rw [medium_after_of_put written]
    exact writeBlock_kept (P := FlashStore.InStep) (fun _ _ _ _ clean => Bool.noConfusion clean) step _ _
  | none =>
    cases event with
    | write | commit | invalidate => cases written
    | flush faults =>
      have facing : (s.facing faults).medium.InStep := step
      exact facing.flush

theorem inStep_afterAll {s : Store FlashStore} (step : s.medium.InStep) (events : List StoreEvent) :
    (s.afterAll events).medium.InStep := by
  induction events generalizing s with
  | nil => exact step
  | cons event events ih => exact ih (inStep_after step event)

/-- A write of erased cells does not even reach an erased image. -/
theorem untouched_after {s : Store FlashStore} {found : Cells storeSize} {event : StoreEvent}
    (untouched : s.medium.Untouched found) (quiet : ¬event.Marks) :
    (s.after event).medium.Untouched found := by
  cases written : event.put? with
  | some put =>
    rw [medium_after_of_put written, writeBlock_of_same]
    · exact untouched
    · intro i inside cell
      rw [size_flashStore] at cell
      rw [readByte_of_blank untouched.image]
      refine Decidable.byContradiction fun other => ?_
      exact quiet ⟨put, written, _, cell, _, Put.at?_add inside, Ne.symm other⟩
  | none =>
    cases event with
    | write | commit | invalidate => cases written
    | flush faults =>
      have facing : (s.medium.facing faults).Untouched found :=
        ⟨untouched.image, untouched.clean, untouched.chip⟩
      show (s.medium.facing faults).flush.Untouched found
      rw [FlashStore.flush_of_clean facing.clean]
      exact facing

/-- Any other byte does, and makes the next flush bring all of the image to the chip. -/
theorem inStep_after_of_marks {s : Store FlashStore} {event : StoreEvent}
    (blank : s.medium.image = .blank storeSize) (marks : event.Marks) :
    (s.after event).medium.InStep := by
  obtain ⟨put, written, a, inside, v, there, other⟩ := marks
  rw [← size_flashStore s] at inside
  have differs : s.readByte a ≠ v := by
    rw [readByte_of_blank blank]
    exact other.symm
  rw [medium_after_of_put written]
  intro clean
  exact absurd ((dirty_writeBlock inside there differs).symm.trans clean) Bool.noConfusion

theorem afterAll_cases_of_untouched {s : Store FlashStore} {found : Cells storeSize}
    (untouched : s.medium.Untouched found) (events : List StoreEvent) :
    ((∃ event ∈ events, event.Marks) ∧ (s.afterAll events).medium.InStep) ∨
    ((¬∃ event ∈ events, event.Marks) ∧ (s.afterAll events).medium.Untouched found) := by
  induction events generalizing s with
  | nil => exact .inr ⟨fun ⟨_, among, _⟩ => absurd among List.not_mem_nil, untouched⟩
  | cons event events ih =>
    have parts : (∃ e ∈ event :: events, e.Marks) ↔ event.Marks ∨ ∃ e ∈ events, e.Marks := by
      simp only [List.mem_cons, or_and_right, exists_or, exists_eq_left]
    rw [parts]
    by_cases marks : event.Marks
    · -- from here on the chip follows, whatever comes
      exact .inl ⟨.inl marks, inStep_afterAll (inStep_after_of_marks untouched.image marks) events⟩
    · rw [or_iff_right marks]
      exact ih (untouched_after untouched marks)

/-- A store starts in step with its chip if the chip can be read or is erased, and untouched if not. -/
theorem opened_cases (f : Flash) :
    ((f.faults.read = 0 ∨ f.image = .blank storeSize) ∧ (ofFlash f).medium.InStep) ∨
    (¬(f.faults.read = 0 ∨ f.image = .blank storeSize) ∧ (ofFlash f).medium.Untouched f.image) := by
  rcases FlashStore.image_load_cases f with ⟨read, loaded⟩ | ⟨fails, loaded⟩
  · exact .inl ⟨.inl read, fun _ => loaded.symm⟩
  · by_cases empty : f.image = .blank storeSize
    · exact .inl ⟨.inr empty, fun _ => empty.trans loaded.symm⟩
    · refine .inr ⟨?_, ⟨loaded, rfl, rfl⟩⟩
      rintro (read | blank)
      · exact absurd read (Nat.ne_of_gt fails)
      · exact empty blank

/-- The events decide whether a store comes into step with a chip that could not be read. -/
theorem afterAll_cases (f : Flash) (events : List StoreEvent) :
    (f.KeepsUp events ∧ ((ofFlash f).afterAll events).medium.InStep) ∨
    (¬f.KeepsUp events ∧ f.image ≠ .blank storeSize ∧
      ((ofFlash f).afterAll events).medium.Untouched f.image) := by
  rcases opened_cases f with ⟨known, step⟩ | ⟨unread, untouched⟩
  · exact .inl ⟨.inl known, inStep_afterAll step events⟩
  · rcases afterAll_cases_of_untouched untouched events with ⟨marks, step⟩ | ⟨quiet, still⟩
    · exact .inl ⟨.inr marks, step⟩
    · exact .inr ⟨not_or.mpr ⟨unread, quiet⟩, (not_or.mp unread).2, still⟩

/-- The store that is found on the chip after a flush, when so many operations of the chip are about to fail
during the flush and afterwards. -/
def reopened (s : Store FlashStore) (faults later : FlashFaults) : Store FlashStore :=
  .ofFlash ((s.facing faults).flush.facing later).medium.flash

theorem image_reopened {s : Store FlashStore} {faults later : FlashFaults} (read : later.read = 0) :
    (s.reopened faults later).medium.image = (s.medium.facing faults).flush.flash.image :=
  FlashStore.image_load (f := ((s.facing faults).flush.facing later).medium.flash) read

theorem image_reopened_of_inStep {s : Store FlashStore} (step : s.medium.InStep) {faults later : FlashFaults}
    (smooth : (s.medium.facing faults).Smooth) (read : later.read = 0) :
    (s.reopened faults later).medium.image = s.medium.image := by
  have facing : (s.medium.facing faults).InStep := step
  exact (image_reopened read).trans (FlashStore.image_flash_of_smooth facing smooth)

theorem image_reopened_of_untouched {s : Store FlashStore} {found : Cells storeSize}
    (untouched : s.medium.Untouched found) {faults later : FlashFaults} (read : later.read = 0) :
    (s.reopened faults later).medium.image = found := by
  have clean : (s.medium.facing faults).dirty = false := untouched.clean
  rw [image_reopened read, FlashStore.flush_of_clean clean]
  exact untouched.chip

/-- After a flush in which no operation fails, the image is found again on the chip just if the chip could be
read when the store was opened, or was erased anyway, or some other byte than that of an erased cell was
written since. Every cell then reads as it did; otherwise the chip still has what it had at first. -/
theorem reopened_iff {f : Flash} {events : List StoreEvent} {s : Store FlashStore}
    (reached : (ofFlash f).afterAll events = s) {faults later : FlashFaults}
    (smooth : (s.medium.facing faults).Smooth) (read : later.read = 0) :
    ((s.reopened faults later).medium.image = s.medium.image ↔ f.KeepsUp events) ∧
    (f.KeepsUp events → (s.reopened faults later).readByte = s.readByte) ∧
    (¬f.KeepsUp events → (s.reopened faults later).medium.image = f.image) := by
  have either := afterAll_cases f events
  rw [reached] at either
  rcases either with ⟨keepsUp, step⟩ | ⟨behind, written, untouched⟩
  · have found := image_reopened_of_inStep step smooth read
    exact ⟨iff_of_true found keepsUp, fun _ => readByte_of_image found, fun behind => absurd keepsUp behind⟩
  · have lost : (s.reopened faults later).medium.image = f.image :=
      image_reopened_of_untouched untouched read
    refine ⟨iff_of_false ?_ behind, fun keepsUp => absurd keepsUp behind, fun _ => lost⟩
    rw [lost, untouched.image]
    exact written

/-- A chip with a script of one byte that cannot be read at first. -/
def unreadFlash : Flash :=
  { Flash.ofScript [0x00] with faults := { read := 1 } }

theorem image_unreadFlash : unreadFlash.image ≠ .blank storeSize := by
  intro blank
  have first : (Flash.ofScript [0x00]).image[0] = 0x1A := Flash.image_ofBytes _ (by decide)
  have cell : unreadFlash.image[0] = (Flash.ofScript [0x00]).image[0] := rfl
  rw [← cell] at first
  simp only [blank, Cells.blank, Vector.getElem_replicate] at first
  cases first

/-- A header of erased cells. -/
def erasedHeader : StoreEvent :=
  .write 0 (.replicate headerSize erased)

theorem not_marks_erasedHeader : ¬erasedHeader.Marks :=
  StoreEvent.not_marks_write fun _ among => List.eq_of_mem_replicate among

/-- With another byte behind it, the erased header reaches the chip. -/
def erasedFurther : Store FlashStore :=
  (ofFlash unreadFlash).afterAll [erasedHeader, .write headerSize [0x07]]

theorem reopened_iff_erasedFurther :
    (ofFlash unreadFlash).afterAll [erasedHeader, .write headerSize [0x07]] = erasedFurther ∧
    (erasedFurther.medium.facing {}).Smooth ∧ ({} : FlashFaults).read = 0 ∧
    (erasedFurther.reopened {} {}).medium.image = erasedFurther.medium.image ∧
    (erasedFurther.reopened {} {}).readByte = erasedFurther.readByte := by
  have smooth : (erasedFurther.medium.facing {}).Smooth := (FlashStore.smooth_iff _).mpr fun _ => ⟨rfl, rfl⟩
  have reached : (ofFlash unreadFlash).afterAll [erasedHeader, .write headerSize [0x07]] = erasedFurther := rfl
  have works : ({} : FlashFaults).read = 0 := rfl
  obtain ⟨found, reads, -⟩ := reopened_iff reached smooth works
  have marks : ∃ event ∈ [erasedHeader, .write headerSize [0x07]], event.Marks :=
    ⟨_, List.mem_cons_of_mem _ List.mem_cons_self, _, rfl, headerSize, by decide, 0x07, rfl, by decide⟩
  exact ⟨reached, smooth, works, found.mpr (.inr marks), reads (.inr marks)⟩

/-- Over a header that could not be read, it does not reach the chip alone. -/
theorem not_reopened_after_unread :
    ¬ ∀ (f : Flash) (events : List StoreEvent) (s : Store FlashStore), (ofFlash f).afterAll events = s →
      ∀ faults later : FlashFaults, (s.medium.facing faults).Smooth → later.read = 0 →
      (s.reopened faults later).medium.image = s.medium.image := by
  intro found
  have behind : ¬unreadFlash.KeepsUp [erasedHeader] := by
    rintro ((read | blank) | ⟨event, among, marks⟩)
    · cases read
    · exact image_unreadFlash blank
    · exact not_marks_erasedHeader (List.mem_singleton.mp among ▸ marks)
  have smooth : (((ofFlash unreadFlash).afterAll [erasedHeader]).medium.facing {}).Smooth :=
    (FlashStore.smooth_iff _).mpr fun _ => ⟨rfl, rfl⟩
  have same := found unreadFlash [erasedHeader] _ rfl {} {} smooth rfl
  rcases afterAll_cases unreadFlash [erasedHeader] with ⟨keepsUp, -⟩ | ⟨-, written, untouched⟩
  · exact behind keepsUp
  · rw [image_reopened_of_untouched untouched rfl, untouched.image] at same
    exact written same

end Store

end Autotype
