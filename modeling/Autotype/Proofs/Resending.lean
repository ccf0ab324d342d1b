import Autotype.Proofs.Draft
import Autotype.Proofs.Resync
import Autotype.Proofs.Snapshot
import Autotype.Proofs.Unread
import Autotype.Proofs.Upload

/-!
# Sending a script again

A host that does not know whether its script is there already sends it again, perhaps in other chunks and with
the other checksum. Each chunk then meets cells that hold its bytes, and the commit meets its header, so
nothing reaches the medium but flushes (`Upload.again`). A flush of a chip that has all of the image does
nothing either, so a second upload wears nothing out (`Upload.again_costs_nothing`).
-/

namespace Autotype

namespace Store

variable {μ : Type} [Medium μ]

/-! ## Flushes alone -/

/-- Whether nothing but flushes happened to a store. -/
inductive Flushed (s : Store μ) : Store μ → Prop
  | refl : Flushed s s
  | flush {t : Store μ} (before : Flushed s t) : Flushed s t.flush

namespace Flushed

variable {s t : Store μ}

/-- What a flush keeps is kept. -/
theorem kept {P : Store μ → Prop} (flushed : s.Flushed t) (flush : ∀ u, P u → P u.flush) (start : P s) :
    P t := by
  induction flushed with
  | refl => exact start
  | flush _ ih => exact flush _ ih

theorem trans {u : Store μ} (flushed : s.Flushed t) (later : t.Flushed u) : s.Flushed u :=
  later.kept (fun _ before => .flush before) flushed

theorem header (flushed : s.Flushed t) : t.header = s.header :=
  flushed.kept (P := fun u => u.header = s.header) (fun _ same => same) rfl

theorem size [LawfulMedium μ] (flushed : s.Flushed t) : t.size = s.size :=
  flushed.kept (P := fun u => u.size = s.size) (fun u same => u.size_flush.trans same) rfl

theorem readByte [LawfulMedium μ] (flushed : s.Flushed t) : t.readByte = s.readByte :=
  flushed.kept (P := fun u => u.readByte = s.readByte) (fun u same => u.readByte_flush.trans same) rfl

theorem read [LawfulMedium μ] (flushed : s.Flushed t) (a : Nat) :
    Medium.read t.medium a = Medium.read s.medium a :=
  flushed.kept (P := fun u => Medium.read u.medium a = Medium.read s.medium a)
    (fun _ same => (LawfulMedium.read_flush _ a).trans same) rfl

theorem writes {s t : Store (Metered μ)} (flushed : s.Flushed t) : t.writes = s.writes :=
  flushed.kept (P := fun u => u.writes = s.writes) (fun _ same => same) rfl

/-- There is nothing to do for a flush if the chip has all of the image. -/
theorem eq_of_clean {s t : Store FlashStore} (flushed : s.Flushed t) (clean : s.medium.dirty = false) :
    t = s := by
  refine flushed.kept (P := fun u => u = s) (fun u same => ?_) rfl
  subst same
  exact congrArg (Store.mk · _) (FlashStore.flush_of_clean clean)

end Flushed

/-! ## What is there already -/

/-- A header that is there, in the cells and at hand, is not written again. -/
theorem Synced.commit_again {s : Store μ} {header : Header} (known : s.Synced header) :
    s.commit header = s := by
  have cells := storedHeader_eq_iff.mp known.stored
  have same : s.writeBlock 0 header.encode.toList = s := by
    refine writeBlock_of_same fun i inside _ => ?_
    rw [Vector.length_toList] at inside
    rw [Nat.zero_add, cells i inside, Vector.getElem_toList]
  rw [Store.commit, same, ← known.header]

/-- Whether a store holds a script under a header, which it goes by. -/
structure Carries (s : Store μ) (header : Header) (script : Bytes) : Prop where
  synced : s.Synced header
  size : s.size = storeSize
  script : ∀ i, (inside : i < script.length) → s.scriptByte i = script[i]

namespace Carries

variable {s t : Store μ} {header : Header} {script sent chunk : Bytes}

theorem of_flushed [LawfulMedium μ] (carries : s.Carries header script) (flushed : s.Flushed t) :
    t.Carries header script where
  synced := carries.synced.of_cells flushed.header flushed.size fun a _ => congrFun flushed.readByte a
  size := flushed.size.trans carries.size
  script i inside := (congrFun flushed.readByte _).trans (carries.script i inside)

/-- A chunk of the script is not written again either. -/
theorem writeBlock (carries : s.Carries header script) (first : sent ++ chunk <+: script) :
    s.writeBlock (scriptStart + sent.length) chunk = s := by
  obtain ⟨later, rfl⟩ := first
  refine writeBlock_of_same fun i inside _ => ?_
  have within : sent.length + i < (sent ++ chunk ++ later).length := by
    simp only [List.length_append]
    omega
  rw [Nat.add_assoc]
  refine (carries.script _ within).trans ?_
  simp only [List.append_assoc, List.getElem_append_right (Nat.le_add_right sent.length i),
    Nat.add_sub_cancel_left, List.getElem_append_left inside]

end Carries

end Store

/-- Whether a header is that of a script, which has a length that a script can have. -/
structure Header.Describes (header : Header) (script : Bytes) : Prop where
  nonempty : script ≠ []
  room : script.length ≤ maxScript
  length : header.length.toNat = script.length
  checksum : header.checksum = Checksum.ofBytes script

/-! ## The steps of a second upload -/

namespace Programmer

variable {μ : Type} [Medium μ] {p : Programmer μ} {header : Header} {script : Bytes}

theorem flushed_setReport {report : Bytes}
    (same : (p.session.receive p.store report).store = p.store) :
    p.store.Flushed (p.setReport report).store := by
  rcases p.store_setReport report with received | received
  · rw [received, same]
    exact .refl
  · rw [received, same]
    exact .flush .refl

theorem Idles.flushed {q : Programmer μ} (idles : p.Idles q) : p.store.Flushed q.store := by
  cases idles with
  | asks report idle => exact flushed_setReport idle.kept.1
  | fetches buffer =>
    rw [store_getReport]
    exact .refl
  | touches => exact .refl

theorem flushed_of_idles {q : Programmer μ} (waits : Relation.ReflTransGen Idles p q) :
    p.store.Flushed q.store := by
  induction waits with
  | refl => exact .refl
  | tail _ idles ih => exact ih.trans idles.flushed

theorem Serves.settled {p q : Programmer FlashStore} {parts : List Part} {answers : List (Option Status)}
    (serves : p.Serves parts answers q) (settled : p.store.medium.Settled) :
    q.store.medium.Settled := by
  induction serves with
  | done => exact settled
  | idle idles _ ih =>
    refine ih ?_
    cases idles with
    | asks report => exact (flash_setReport settled report).1
    | fetches buffer =>
      rw [store_getReport]
      exact settled
    | touches => exact settled
  | part _ _ ih => exact ih (flash_setReport settled _).1

variable {original : Nat → UInt8} {sent report : Bytes}

/-- A chunk that comes again finds its bytes in the cells. -/
theorem Uploading.received_append_again {chunk : Bytes} (uploading : p.Uploading original sent)
    (carries : p.store.Carries header script) (room : script.length ≤ maxScript)
    (asked : (Part.append chunk).AskedBy report) (fits : (Part.append chunk).Fits)
    (first : sent ++ chunk <+: script) : (p.session.receive p.store report).store = p.store := by
  obtain ⟨payload, taken, parsed⟩ := asked
  have positive := List.length_pos_iff.mpr fits.1
  have offset := uploading.offset
  have inside := first.length_le
  rw [List.length_append] at inside
  rw [Session.receive_eq parsed, Session.handle, Session.append_of_fits positive fits.2 (by omega), taken,
    offset]
  exact carries.writeBlock first

variable [LawfulMedium μ]

/-- The commit of a script that was sent is accepted, and puts its header in front of it. -/
theorem Uploading.received_commit_whole (uploading : p.Uploading original script)
    (describes : header.Describes script) (asked : (Part.commit header).AskedBy report) :
    (p.session.receive p.store report).store = p.store.commit header ∧
      (p.setReport report).status? = some .ok := by
  obtain ⟨fromStore, parsed⟩ := asked
  obtain ⟨outcome, -⟩ := uploading.received_commit parsed describes.nonempty describes.room describes.length
    describes.checksum
  exact ⟨congrArg Outcome.store outcome,
    status?_setReport p report (congrArg Outcome.reply outcome) Reply.isOk_ok⟩

theorem Uploading.carries_commit (uploading : p.Uploading original script) (header : Header) :
    (p.store.commit header).Carries header script := by
  have cells : headerSize ≤ p.store.size := by
    rw [uploading.size]
    decide
  refine ⟨.commit cells header, (Store.size_commit _ _).trans uploading.size, fun i inside => ?_⟩
  rw [Store.scriptByte_commit cells, Store.scriptByte, uploading.cells, overlaid_add inside]

end Programmer

/-! ## Whole uploads -/

/-- An upload of a script to a programmer, with any idle contacts up to the commit. -/
structure Upload {μ : Type} [Medium μ] (p : Programmer μ) (header : Header) (script : Bytes) where
  chunks : List Bytes
  whole : chunks.flatten = script
  fits : ∀ chunk ∈ chunks, (Part.append chunk).Fits
  /-- The programmer when all of the script was sent. -/
  before : Programmer μ
  answers : List (Option Status)
  sends : p.Serves (.reset :: chunks.map .append) answers before
  /-- The report that asks for the commit. -/
  report : Bytes
  commits : (Part.commit header).AskedBy report

namespace Upload

section

variable {μ : Type} [Medium μ] {p : Programmer μ} {header : Header} {script : Bytes}

def after (u : Upload p header script) : Programmer μ :=
  u.before.setReport u.report

/-- Whether each step is answered with success. -/
def Accepted (u : Upload p header script) : Prop :=
  (∀ answer ∈ u.answers, answer = some .ok) ∧ u.after.status? = some .ok

variable [LawfulMedium μ]

/-- What is left of an upload when all of the script was sent. -/
theorem uploading_before (u : Upload p header script) (room : script.length ≤ maxScript)
    (size : p.store.size = storeSize) :
    (∀ answer ∈ u.answers, answer = some .ok) ∧ ∃ original, u.before.Uploading original script := by
  obtain ⟨q, report, later, waits, asked, answers, sends⟩ := u.sends.next
  have same := Programmer.Same.of_idles waits
  obtain ⟨start, ok⟩ := Programmer.uploading_reset (same.size.trans size) asked
  have whole : [] ++ u.chunks.flatten = script := u.whole
  obtain ⟨answered, sent⟩ := start.sends sends u.fits (by rwa [whole])
  rw [whole] at sent
  rw [answers]
  exact ⟨List.forall_mem_cons.mpr ⟨ok, answered⟩, _, sent⟩

/-- Whatever there was before, an upload is accepted and leaves its script behind. -/
theorem carries_after (u : Upload p header script) (describes : header.Describes script)
    (size : p.store.size = storeSize) : u.Accepted ∧ u.after.store.Carries header script := by
  obtain ⟨answered, original, uploading⟩ := u.uploading_before describes.room size
  obtain ⟨received, ok⟩ := uploading.received_commit_whole describes u.commits
  have carries := uploading.carries_commit header
  refine ⟨⟨answered, ok⟩, ?_⟩
  rcases u.before.store_setReport u.report with same | same
  · rw [after, same, received]
    exact carries
  · rw [after, same, received]
    exact carries.of_flushed (.flush .refl)

/-- What is there already is sent without a write. -/
theorem flushed_before (u : Upload p header script) (room : script.length ≤ maxScript)
    (carries : p.store.Carries header script) : p.store.Flushed u.before.store := by
  obtain ⟨q, report, later, waits, asked, -, sends⟩ := u.sends.next
  have waited := Programmer.flushed_of_idles waits
  have reset : q.store.Flushed (q.setReport report).store :=
    Programmer.flushed_setReport (congrArg Outcome.store (Programmer.received_reset asked))
  obtain ⟨start, -⟩ := Programmer.uploading_reset (waited.size.trans carries.size) asked
  -- as long as nothing but flushes happened, the cells hold the next chunk
  have steps := sends.appends
    (P := fun sent q' => p.store.Flushed q'.store ∧ q'.Uploading q.store.readByte sent)
    (fun known idles => ⟨known.1.trans idles.flushed, known.2.same idles.same⟩)
    (fun known asked among first => by
      obtain ⟨flushed, uploading⟩ := known
      have fit := u.fits _ among
      have same := uploading.received_append_again (carries.of_flushed flushed) room asked fit first
      obtain ⟨next, ok⟩ := uploading.append asked fit (Nat.le_trans first.length_le room)
      exact ⟨⟨flushed.trans (Programmer.flushed_setReport same), next⟩, ok⟩)
    ⟨waited.trans reset, start⟩ u.whole
  exact steps.2.1

/-- An upload of what is there already leaves the store as it is, but for flushes. -/
theorem again (u : Upload p header script) (describes : header.Describes script)
    (carries : p.store.Carries header script) : u.Accepted ∧ p.store.Flushed u.after.store := by
  obtain ⟨answered, original, uploading⟩ := u.uploading_before describes.room carries.size
  obtain ⟨received, ok⟩ := uploading.received_commit_whole describes u.commits
  have sent := u.flushed_before describes.room carries
  have same := received.trans (carries.of_flushed sent).synced.commit_again
  exact ⟨⟨answered, ok⟩, sent.trans (Programmer.flushed_setReport same)⟩

end

section

variable {p : Programmer FlashStore} {header : Header} {script : Bytes}

/-- Whether no operation of the chip fails in the flush after the commit. -/
def FlushWorks (u : Upload p header script) : Prop :=
  (u.before.session.receive u.before.store u.report).store.medium.Smooth

/-- A chip that works when an upload begins still does when the upload ends. -/
theorem flushWorks_of_settled (u : Upload p header script) (settled : p.store.medium.Settled) :
    u.FlushWorks := by
  have settled' := u.sends.settled settled
  have received := Session.receive_kept (P := FlashStore.Settled)
    (fun _ a v known => known.write a v) u.before.session settled' u.report
  refine (FlashStore.smooth_iff _).mpr fun _ => ?_
  rw [received.works]
  exact ⟨rfl, rfl⟩

theorem clean_after (u : Upload p header script) (works : u.FlushWorks) :
    u.after.store.medium.dirty = false := by
  have flushes : Programmer.asksForFlush u.report = true := by
    obtain ⟨fromStore, asked⟩ := u.commits
    exact (Programmer.asksForFlush_iff u.report).mpr ⟨_, asked, trivial⟩
  have flushed : u.after.store = (u.before.session.receive u.before.store u.report).store.flush := by
    rw [after, Programmer.setReport, if_pos flushes, Session.receive_take]
  rw [flushed]
  exact FlashStore.clean_flush_of_smooth works

end

/-- After an upload, whatever there was before, the same script under the same header is sent again, in
whatever chunks and with either checksum. All is accepted both times, and the second time no write reaches the
medium, and every cell and the header at hand stay as they are. In flash, if the flush after the first commit
went well, the store stays the same altogether, with what was done to the chip: it is neither erased nor
programmed again. -/
theorem again_costs_nothing {header : Header} {script : Bytes} (describes : header.Describes script) :
    (∀ {μ : Type} [Medium μ] [LawfulMedium μ] {p : Programmer (Metered μ)}, p.store.size = storeSize →
      ∀ (first : Upload p header script) (second : Upload first.after header script),
        first.Accepted ∧ second.Accepted ∧ second.after.store.writes = first.after.store.writes ∧
        (∀ a, Medium.read second.after.store.medium a = Medium.read first.after.store.medium a) ∧
        second.after.store.header = first.after.store.header) ∧
    ∀ {p : Programmer FlashStore} (first : Upload p header script)
      (second : Upload first.after header script), first.FlushWorks →
      first.Accepted ∧ second.Accepted ∧ second.after.store = first.after.store := by
  constructor
  · intro μ _ _ p size first second
    obtain ⟨accepted, carries⟩ := first.carries_after describes size
    obtain ⟨accepted', flushed⟩ := second.again describes carries
    exact ⟨accepted, accepted', flushed.writes, flushed.read, flushed.header⟩
  · intro p first second works
    obtain ⟨accepted, carries⟩ := first.carries_after describes (Store.size_flashStore p.store)
    obtain ⟨accepted', flushed⟩ := second.again describes carries
    exact ⟨accepted, accepted', flushed.eq_of_clean (first.clean_after works)⟩

/-- A script that taps one key, sent in two chunks. -/
def inTwo {μ : Type} [Medium μ] (p : Programmer μ) : Upload p .oneTap [0x06, 0x04, 0x00] where
  chunks := [[0x06, 0x04], [0x00]]
  whole := rfl
  fits := by decide
  before := _
  answers := _
  sends := .part (Part.askedBy_report_reset 0 []) <|
    .part (Part.askedBy_report_append 0 (by decide) []) <|
    .part (Part.askedBy_report_append 0 (by decide) []) .done
  report := _
  commits := Part.askedBy_report_commit 0 .oneTap []

/-- The same script as a whole, with a refused write before the commit, which asks for the checksum of the
cells. -/
def atOnce {μ : Type} [Medium μ] (p : Programmer μ) : Upload p .oneTap [0x06, 0x04, 0x00] where
  chunks := [[0x06, 0x04, 0x00]]
  whole := rfl
  fits := by decide
  before := _
  answers := _
  sends := .part (Part.askedBy_report_reset 0 []) <|
    .part (Part.askedBy_report_append 0 (by decide) []) <|
    .idle (.asks [0x01, 0x00, 0x02, 0x01] (.inr (.inr (.inr ⟨.invalidAddress, by decide, rfl⟩)))) .done
  report := _
  commits := Part.askedBy_report_commit 1 .oneTap []

theorem describes_oneTap : Header.oneTap.Describes [0x06, 0x04, 0x00] :=
  ⟨by decide, by decide, by decide, by decide +kernel⟩

theorem again_costs_nothing_oneTap :
    let p : Programmer (Metered Memory) := .new (Store.mount {}).metered
    let f : Programmer FlashStore := .new (.ofFlash {})
    Header.oneTap.Describes [0x06, 0x04, 0x00] ∧ p.store.size = storeSize ∧ (inTwo f).FlushWorks ∧
    (inTwo p).after.store.writes = [7, 6, 5, 4, 3, 2, 1, 0, 10, 9, 8] ∧
    (atOnce (inTwo p).after).after.store.writes = (inTwo p).after.store.writes ∧
    (atOnce (inTwo p).after).Accepted ∧
    (atOnce (inTwo f).after).after.store = (inTwo f).after.store := by
  intro p f
  have size : p.store.size = storeSize := by decide +kernel
  have works : (inTwo f).FlushWorks := (inTwo f).flushWorks_of_settled (FlashStore.settled_load rfl)
  obtain ⟨metered, flash⟩ := again_costs_nothing describes_oneTap
  obtain ⟨-, accepted, writes, -⟩ := metered size (inTwo p) (atOnce (inTwo p).after)
  obtain ⟨-, -, same⟩ := flash (inTwo f) (atOnce (inTwo f).after) works
  exact ⟨describes_oneTap, size, works, by decide +kernel, writes, accepted, same⟩

end Upload

end Autotype
