import Autotype.Proofs.Chip

/-!
# Flushes that fail

A flush may fail before the sector is erased, or between erasing and programming. In either case the image
still waits to be written, and on the chip there is the image that was brought there last, or nothing at all;
never is it a mixture of two images (`Persistence.Sound`). The record of what was brought to the chip last is
kept beside the store, for the sake of saying this.
-/

namespace Autotype

/-! ## Flushes -/

namespace FlashStore

theorem dirty_flush_of_fails {f : FlashStore} (dirty : f.dirty = true)
    (fails : 0 < f.flash.faults.erase ∨ 0 < f.flash.faults.program) : f.flush.dirty = true := by
  have flushes := f.flushes_flush
  generalize f.flush = after at flushes ⊢
  cases flushes with
  | rests | unerased | unprogrammed => exact dirty
  | persists _ erases programs =>
    rw [erases, programs] at fails
    rcases fails with fails | fails <;> cases fails

theorem image_flash_flush {f : FlashStore} (clean : f.dirty = false → f.flash.image = f.image)
    (erases : f.flash.faults.erase = 0) (programs : f.flash.faults.program = 0) :
    f.flush.flash.image = f.image := by
  have flushes := f.flushes_flush
  generalize f.flush = after at flushes ⊢
  cases flushes with
  | rests still => exact clean still
  | unerased _ fails => exact absurd erases (Nat.ne_of_gt fails)
  | unprogrammed _ _ fails => exact absurd programs (Nat.ne_of_gt fails)
  | persists _ _ _ _ image => exact image

theorem sector_flush_of_unprogrammed {f : FlashStore} (dirty : f.dirty = true)
    (erases : f.flash.faults.erase = 0) (fails : 0 < f.flash.faults.program) :
    f.flush.flash.sector = .blank sectorSize := by
  have flushes := f.flushes_flush
  generalize f.flush = after at flushes ⊢
  cases flushes with
  | rests clean => exact absurd (dirty.symm.trans clean) Bool.noConfusion
  | unerased _ fails' => exact absurd erases (Nat.ne_of_gt fails')
  | unprogrammed _ _ _ sector => exact sector
  | persists _ _ programs => exact absurd programs (Nat.ne_of_gt fails)

/-- A store when so many operations of its chip are about to fail. -/
def facing (f : FlashStore) (faults : FlashFaults) : FlashStore :=
  { f with flash := { f.flash with faults := faults } }

/-- Whether a flush erases the sector and then programs the image. -/
def persists (f : FlashStore) : Bool :=
  f.dirty && f.flash.erase.1 && (f.flash.erase.2.program f.image).1

theorem persists_iff (f : FlashStore) :
    f.persists = true ↔ f.dirty = true ∧ f.flash.faults.erase = 0 ∧ f.flash.faults.program = 0 := by
  rw [persists, Bool.and_eq_true, Bool.and_eq_true, and_assoc]
  refine and_congr_right fun _ => ?_
  rcases f.flash.erase_cases with ⟨fails, g, failed, -⟩ | ⟨erases, g, worked, faults, -⟩
  · rw [failed]
    have broken : f.flash.faults.erase ≠ 0 := Nat.ne_of_gt fails
    exact ⟨fun h => absurd h.1 Bool.false_ne_true, fun h => absurd h.1 broken⟩
  · rw [worked]
    refine and_congr (iff_of_true rfl erases) ?_
    rcases g.program_cases f.image with ⟨fails, h, failed, -⟩ | ⟨programs, h, worked, -, -⟩
    · rw [failed, ← faults]
      exact iff_of_false Bool.false_ne_true (Nat.ne_of_gt fails)
    · rw [worked, ← faults]
      exact iff_of_true rfl programs

end FlashStore

/-! ## Blank chips -/

theorem Flash.image_of_blank {f : Flash} (blank : f.sector = .blank sectorSize) :
    f.image = .blank storeSize := by
  apply Vector.ext
  intro i inside
  have within : i < sectorSize := Nat.lt_trans inside (by decide)
  rw [image, Vector.getElem_ofFn, blank]
  show (Cells.blank sectorSize)[i] = (Cells.blank storeSize)[i]
  rw [Cells.blank, Cells.blank, Vector.getElem_replicate, Vector.getElem_replicate]

theorem Store.readByte_of_blank {s : Store FlashStore} (blank : s.medium.image = .blank storeSize) (a : Nat) :
    s.readByte a = erased := by
  rw [readByte]
  split
  · show s.medium.read a = erased
    rw [FlashStore.read]
    split
    · simp only [blank, Cells.blank, Vector.getElem_replicate]
    · rfl
  · rfl

/-- In a blank image there is no script. -/
theorem Store.hasScript_of_blank {f : Flash} (blank : (FlashStore.load f).image = .blank storeSize) :
    (ofFlash f).hasScript = false := by
  have nothing : (ofFlash f).readByte = fun _ => erased := funext (readByte_of_blank blank)
  rw [hasScript, header_ofFlash, storedHeader, nothing]
  decide

theorem Store.hasScript_of_blank_flash {f : Flash} (blank : f.image = .blank storeSize) :
    (ofFlash f).hasScript = false := by
  rcases FlashStore.image_load_cases f with ⟨-, loaded⟩ | ⟨-, loaded⟩
  · exact hasScript_of_blank (loaded.trans blank)
  · exact hasScript_of_blank loaded

/-! ## What is on the chip -/

/-- What can happen to a store in flash. -/
inductive FlashEvent where
  | write (a : Nat) (v : UInt8)
  /-- A flush, when so many operations of the chip are about to fail. -/
  | flush (faults : FlashFaults)

/-- A store in flash, and the image that was found at first or brought to the chip by the last flush that
worked. -/
structure Persistence where
  store : FlashStore
  persisted : Cells storeSize

namespace Persistence

def opened (f : Flash) : Persistence :=
  { store := .load f, persisted := (FlashStore.load f).image }

def after (p : Persistence) : FlashEvent → Persistence
  | .write a v => { p with store := p.store.write a v }
  | .flush faults =>
    let store := p.store.facing faults
    { store := store.flush, persisted := if store.persists then store.image else p.persisted }

def afterAll (p : Persistence) (events : List FlashEvent) : Persistence :=
  events.foldl after p

/-- Whether the chip holds the image that was brought there last, or nothing, and holds the image of the
store unless that was written to. -/
structure Sound (p : Persistence) : Prop where
  chip : p.store.flash.image = p.persisted ∨ p.store.flash.image = .blank storeSize
  clean : p.store.dirty = false → p.store.flash.image = p.store.image

theorem sound_opened {f : Flash} (read : f.faults.read = 0) : (opened f).Sound := by
  have image := FlashStore.image_load read
  exact ⟨.inl image.symm, fun _ => image.symm⟩

theorem Sound.write {p : Persistence} (sound : p.Sound) (a : Nat) (v : UInt8) :
    (p.after (.write a v)).Sound :=
  ⟨sound.chip, fun clean => Bool.noConfusion clean⟩

theorem Sound.flush {s : FlashStore} {persisted : Cells storeSize} (sound : Sound ⟨s, persisted⟩) :
    Sound ⟨s.flush, if s.persists then s.image else persisted⟩ := by
  obtain ⟨chip, clean⟩ := sound
  -- only a flush that goes all the way changes what counts as persisted
  have known := s.persists_iff
  have flushes := s.flushes_flush
  generalize s.flush = t at flushes ⊢
  cases flushes with
  | rests rests =>
    have quiet : ¬s.persists = true := by
      rw [known, rests]
      exact fun works => Bool.false_ne_true works.1
    rw [if_neg quiet]
    exact ⟨chip, clean⟩
  | unerased dirty fails sector =>
    have quiet : ¬s.persists = true := by
      rw [known]
      exact fun works => Nat.ne_of_gt fails works.2.1
    rw [if_neg quiet]
    constructor
    · show Flash.image _ = persisted ∨ Flash.image _ = _
      rw [Flash.image, sector]
      exact chip
    · intro clean'
      exact absurd (dirty.symm.trans clean') Bool.noConfusion
  | unprogrammed dirty _ fails sector =>
    have quiet : ¬s.persists = true := by
      rw [known]
      exact fun works => Nat.ne_of_gt fails works.2.2
    rw [if_neg quiet]
    constructor
    · exact .inr (Flash.image_of_blank sector)
    · intro clean'
      exact absurd (dirty.symm.trans clean') Bool.noConfusion
  | persists dirty erases programs _ image =>
    rw [if_pos (known.mpr ⟨dirty, erases, programs⟩)]
    exact ⟨.inl image, fun _ => image⟩

theorem sound_afterAll {f : Flash} (read : f.faults.read = 0) (events : List FlashEvent) :
    ((opened f).afterAll events).Sound := by
  have step : ∀ p : Persistence, p.Sound → (p.afterAll events).Sound := by
    intro p sound
    induction events generalizing p with
    | nil => exact sound
    | cons event events ih =>
      refine ih (p.after event) ?_
      cases event with
      | write a v => exact sound.write a v
      | flush faults =>
        have facing : Sound ⟨p.store.facing faults, p.persisted⟩ := ⟨sound.chip, sound.clean⟩
        exact facing.flush
  exact step (opened f) (sound_opened read)

/-- What is found on the chip is no script, or the image that was brought there last. -/
theorem Sound.reopened {p : Persistence} (sound : p.Sound) (faults : FlashFaults) :
    (Store.ofFlash (p.store.facing faults).flash).hasScript = false ∨
    (Store.ofFlash (p.store.facing faults).flash).medium.image = p.persisted := by
  rcases FlashStore.image_load_cases (p.store.facing faults).flash with ⟨-, loaded⟩ | ⟨-, loaded⟩
  · rcases sound.chip with kept | blank
    · exact .inr (loaded.trans kept)
    · exact .inl (Store.hasScript_of_blank (loaded.trans blank))
  · exact .inl (Store.hasScript_of_blank loaded)

/-- Whatever is written and whichever operations of the chip fail: the chip holds the image that was brought
there last or nothing, and the image of the store unless that was written to. A flush that meets a failure
keeps the image and still has to be done; one that meets none brings the whole image to the chip. After a
failed program no script is found on the chip, and at any time none or the image that was brought there
last. -/
theorem never_mixes_images {f : Flash} {events : List FlashEvent} {p : Persistence}
    (read : f.faults.read = 0) (reached : (opened f).afterAll events = p) :
    (p.store.flash.image = p.persisted ∨ p.store.flash.image = .blank storeSize) ∧
    (p.store.dirty = false → p.store.flash.image = p.store.image) ∧
    (∀ faults, p.store.dirty = true → 0 < faults.erase ∨ 0 < faults.program →
      (p.store.facing faults).flush.image = p.store.image ∧ (p.store.facing faults).flush.dirty = true) ∧
    (∀ faults, faults.erase = 0 → faults.program = 0 →
      (p.store.facing faults).flush.flash.image = p.store.image) ∧
    (∀ faults, p.store.dirty = true → faults.erase = 0 → 0 < faults.program → ∀ later,
      (Store.ofFlash ((p.store.facing faults).flush.facing later).flash).hasScript = false) ∧
    ∀ later, (Store.ofFlash (p.store.facing later).flash).hasScript = false ∨
      (Store.ofFlash (p.store.facing later).flash).medium.image = p.persisted := by
  have sound : p.Sound := reached ▸ sound_afterAll read events
  refine ⟨sound.chip, sound.clean, ?_, ?_, ?_, fun later => sound.reopened later⟩
  · intro faults dirty fails
    have store : (p.store.facing faults).dirty = true := dirty
    exact ⟨FlashStore.image_flush _, FlashStore.dirty_flush_of_fails store fails⟩
  · intro faults erases programs
    exact FlashStore.image_flash_flush sound.clean erases programs
  · intro faults dirty erases fails later
    have blank := FlashStore.sector_flush_of_unprogrammed (f := p.store.facing faults) dirty erases fails
    exact Store.hasScript_of_blank_flash (Flash.image_of_blank blank)

/-- A script is overwritten, first with a program that fails and then with an erase that fails. -/
def overwritten : Persistence :=
  (opened (.ofScript [0x00])).afterAll
    [.write 8 0x07, .flush { program := 1 }, .write 9 0x01, .flush { erase := 1 }]

theorem overwritten_not_mixed :
    (Flash.ofScript [0x00]).faults.read = 0 ∧
    (opened (.ofScript [0x00])).afterAll
      [.write 8 0x07, .flush { program := 1 }, .write 9 0x01, .flush { erase := 1 }] = overwritten ∧
    overwritten.store.dirty = true ∧
    (overwritten.store.flash.image = overwritten.persisted ∨
      overwritten.store.flash.image = .blank storeSize) ∧
    (overwritten.store.dirty = false → overwritten.store.flash.image = overwritten.store.image) ∧
    (∀ faults, overwritten.store.dirty = true → 0 < faults.erase ∨ 0 < faults.program →
      (overwritten.store.facing faults).flush.image = overwritten.store.image ∧
      (overwritten.store.facing faults).flush.dirty = true) ∧
    (∀ faults, faults.erase = 0 → faults.program = 0 →
      (overwritten.store.facing faults).flush.flash.image = overwritten.store.image) ∧
    (∀ faults, overwritten.store.dirty = true → faults.erase = 0 → 0 < faults.program → ∀ later,
      (Store.ofFlash ((overwritten.store.facing faults).flush.facing later).flash).hasScript = false) ∧
    ∀ later, (Store.ofFlash (overwritten.store.facing later).flash).hasScript = false ∨
      (Store.ofFlash (overwritten.store.facing later).flash).medium.image = overwritten.persisted :=
  have read : (Flash.ofScript [0x00]).faults.read = 0 := rfl
  ⟨read, rfl, rfl, never_mixes_images read rfl⟩

end Persistence

end Autotype
