import Autotype.Proofs.Committed
import Autotype.Proofs.History

/-!
# Uploads that are not committed

What is appended goes to the cells of the script region at once, while the header says what it said before.
Until a commit the header therefore announces what was appended last to each offset, the draft, and the
script that was committed only where there is no draft. A committed script survives an upload that is not
finished just as far as the draft agrees with it (`Draft.Over.keeps_iff`).
-/

namespace Autotype

/-- What was appended last to each offset of the script region, if anything was. -/
abbrev Draft := Nat → Option UInt8

/-- Whether the script that one store announces is still there in another one. -/
structure Store.Keeps {μ : Type} [Medium μ] (s t : Store μ) : Prop where
  hasScript : t.hasScript = true
  verify : t.verify t.scriptLength.toNat t.header.checksum = true
  script : t.script s.scriptLength.toNat = s.script s.scriptLength.toNat

theorem Store.scriptByte_writeBlock {μ : Type} [Medium μ] [LawfulMedium μ] {s : Store μ} {offset : Nat}
    {bs : Bytes} (fits : scriptStart + offset + bs.length ≤ s.size) :
    (s.writeBlock (scriptStart + offset) bs).scriptByte = overlaid s.scriptByte offset bs := by
  funext i
  rw [scriptByte, readByte_writeBlock_eq fits, overlaid_shift]
  rfl

namespace Draft

/-- Takes note of a request, if a report contained one, and of the reply to it. -/
def note (d : Draft) : Option Request → Reply → Draft
  | some (.append length payload), .appended reached _ =>
    overlaid d (reached - length) ((payload.take length).map some)
  | _, _ => d

theorem note_refused (d : Draft) (asked : Option Request) (why : Refusal) :
    d.note asked (.refused why) = d := by
  unfold note Reply.refused
  split
  · cases ‹Reply.status _ = _›
  · rfl

variable {μ : Type} [Medium μ]

/-- Whether a store is what another one has become by a draft alone. -/
structure Over (d : Draft) (s t : Store μ) : Prop where
  size : t.size = s.size
  header : t.header = s.header
  headerCell : ∀ a < scriptStart, t.readByte a = s.readByte a
  scriptByte : ∀ i, t.scriptByte i = (d i).getD (s.scriptByte i)

namespace Over

variable {d : Draft} {s t : Store μ}

theorem refl (s : Store μ) : Over (fun _ => none) s s :=
  ⟨rfl, rfl, fun _ _ => rfl, fun _ => rfl⟩

/-- Nothing else matters but the cells and the header. -/
theorem congr {u : Store μ} (laid : d.Over s t) (size : u.size = t.size) (header : u.header = t.header)
    (cells : u.readByte = t.readByte) : d.Over s u where
  size := size.trans laid.size
  header := header.trans laid.header
  headerCell a inside := by rw [cells, laid.headerCell a inside]
  scriptByte i := by
    rw [Store.scriptByte, cells]
    exact laid.scriptByte i

theorem hasScript (laid : d.Over s t) : t.hasScript = s.hasScript := by
  rw [Store.hasScript, Store.hasScript, laid.header]

theorem scriptLength (laid : d.Over s t) : t.scriptLength = s.scriptLength := by
  rw [Store.scriptLength, Store.scriptLength, laid.hasScript, laid.header]

theorem appended [LawfulMedium μ] (laid : d.Over s t) (size : s.size = storeSize) {offset : Nat}
    {data : Bytes} (fits : offset + data.length ≤ maxScript) :
    Over (overlaid d offset (data.map some)) s (t.writeBlock (scriptStart + offset) data) := by
  have numbers := geometry
  have room : scriptStart + offset + data.length ≤ t.size := by
    rw [laid.size, size]
    omega
  refine ⟨?_, ?_, ?_, ?_⟩
  · rw [Store.size_writeBlock, laid.size]
  · rw [Store.header_writeBlock, laid.header]
  · intro a inside
    rw [Store.readByte_writeBlock_eq room, overlaid_of_lt (by omega), laid.headerCell a inside]
  · intro i
    rw [Store.scriptByte_writeBlock room, getD_overlaid_some]
    exact overlaid_congr fun _ => laid.scriptByte i

/-- A committed script is kept just if the draft agrees with it. -/
theorem keeps_iff (laid : d.Over s t) (script : s.hasScript = true)
    (verify : s.verify s.scriptLength.toNat s.header.checksum = true) :
    s.Keeps t ↔ ∀ i < s.scriptLength.toNat, ∀ v, d i = some v → v = s.scriptByte i := by
  constructor
  · intro keeps i inside v drafted
    have same := congrArg (fun bytes : Bytes => bytes[i]?) keeps.script
    simp only [Store.script, List.getElem?_map, List.getElem?_range inside, Option.map_some,
      Option.some.injEq] at same
    rw [laid.scriptByte i, drafted, Option.getD_some] at same
    exact same
  · intro agrees
    have bytes : t.script s.scriptLength.toNat = s.script s.scriptLength.toNat := by
      refine List.map_congr_left fun i mem => ?_
      rw [laid.scriptByte i]
      cases drafted : d i with
      | none => rfl
      | some v => exact agrees i (List.mem_range.mp mem) v drafted
    refine ⟨laid.hasScript.trans script, ?_, bytes⟩
    rw [laid.scriptLength, laid.header, ← verify, Store.verify, Store.verify, Store.scriptChecksum,
      Store.scriptChecksum, bytes]

end Over

end Draft

namespace Request

/-- Whether a request is a write or a commit. -/
def Rewrites : Request → Prop
  | .write _ _ _ | .commit _ _ => True
  | _ => False

theorem rewrites_iff {f : Vector UInt8 reportSize} :
    (∃ request, ofFrame? f = some request ∧ request.Rewrites) ↔
      f[0] = writeCommand ∨ f[0] = commitCommand := by
  constructor
  · rintro ⟨request, asked, rewrites⟩
    unfold ofFrame? at asked
    split at asked
    case h_1 command => exact .inl command
    case h_5 command => exact .inr command
    case h_8 => cases asked
    all_goals
      cases asked
      cases rewrites
  · rintro (command | command)
    · exact ⟨_, ofFrame?_write command, trivial⟩
    · exact ⟨_, ofFrame?_commit command, trivial⟩

end Request

namespace Programmer

variable {μ : Type} [Medium μ]

/-- Just the reports that ask for a write or a commit ask for a flush. -/
theorem asksForFlush_iff (report : Bytes) :
    asksForFlush report = true ↔
      ∃ request, Request.ofReport? report = some request ∧ request.Rewrites := by
  cases report with
  | nil =>
    constructor
    · intro asks
      cases asks
    · rintro ⟨request, asked, -⟩
      cases asked
  | cons b bs =>
    have command : (Request.frame (b :: bs))[0] = (b :: bs).getD 0 0 :=
      Request.getElem_frame _ (by decide)
    rw [List.getD_cons_zero] at command
    rw [Request.ofReport?_eq (List.cons_ne_nil b bs), Request.rewrites_iff, command]
    constructor
    · intro asks
      unfold asksForFlush at asks
      split at asks
      · next same => exact .inl (Option.some.inj same)
      · next same => exact .inr (Option.some.inj same)
      · cases asks
    · rintro (rfl | rfl) <;> rfl

/-- Whether the writes and commits among these reports, if any, are all refused, and not for a wrong
checksum. -/
def Refuses (p : Programmer μ) : List Bytes → Prop
  | [] => True
  | report :: reports =>
    (asksForFlush report = true →
      (p.session.receive p.store report).reply = .refused .invalidAddress ∨
      (p.session.receive p.store report).reply = .refused .invalidLength) ∧
    (p.setReport report).Refuses reports

theorem refuses_of_appends {p : Programmer μ} {reports : List Bytes}
    (appends : ∀ report ∈ reports, asksForFlush report = false) : p.Refuses reports := by
  induction reports generalizing p with
  | nil => trivial
  | cons report reports ih =>
    refine ⟨?_, ih fun r mem => appends r (List.mem_cons_of_mem report mem)⟩
    intro asks
    rw [appends report List.mem_cons_self] at asks
    cases asks

/-- The draft after these reports. -/
def draft (p : Programmer μ) (d : Draft) : List Bytes → Draft
  | [] => d
  | report :: reports =>
    (p.setReport report).draft
      (d.note (Request.ofReport? report) (p.session.receive p.store report).reply) reports

variable {p : Programmer μ} {d : Draft} {s : Store μ}

theorem over_receive [LawfulMedium μ] (laid : d.Over s p.store) (size : s.size = storeSize)
    {report : Bytes} {reports : List Bytes} (refuses : p.Refuses (report :: reports)) :
    (d.note (Request.ofReport? report) (p.session.receive p.store report).reply).Over s
      (p.session.receive p.store report).store := by
  have effect := Session.effect_receive p.session p.store report
  have harmless := refuses.1
  cases asked : Request.ofReport? report with
  | none =>
    rw [asked] at effect
    generalize p.session.receive p.store report = outcome at effect
    cases effect with
    | refused why other =>
      rw [Draft.note_refused]
      exact laid
  | some request =>
    have rewrites : request.Rewrites → asksForFlush report = true :=
      fun rewrites => (asksForFlush_iff report).mpr ⟨request, asked, rewrites⟩
    rw [asked] at effect
    generalize p.session.receive p.store report = outcome at effect harmless
    cases effect with
    | refused why other =>
      rw [Draft.note_refused]
      exact laid
    | wrote =>
      rcases harmless (rewrites trivial) with same | same <;> cases same
    | appended full fits =>
      rename_i length payload
      show Draft.Over (overlaid d (p.session.offset + length - length) _) s _
      rw [Nat.add_sub_cancel]
      exact laid.appended size (by rwa [full])
    | committed | mismatched =>
      rcases harmless (rewrites trivial) with same | same <;> cases same
    | read | reset | told | left => exact laid

theorem over_setReports [LawfulMedium μ] (laid : d.Over s p.store) (size : s.size = storeSize)
    {reports : List Bytes} (refuses : p.Refuses reports) :
    (p.draft d reports).Over s (p.setReports reports).store := by
  induction reports generalizing p d with
  | nil => exact laid
  | cons report reports ih =>
    refine ih ?_ refuses.2
    have received := over_receive laid size refuses
    rcases p.store_setReport report with same | same
    · rw [same]
      exact received
    · rw [same]
      exact received.congr (Store.size_flush _) (Store.header_flush _) (Store.readByte_flush _)

/-! ## What becomes of a committed script -/

/-- After any reports but writes and commits the header is what it was, and the committed script is still
there just if the draft agrees with it. -/
theorem keeps_iff_draft [LawfulMedium μ] (p : Programmer μ) (size : p.store.size = storeSize)
    (script : p.store.hasScript = true)
    (verify : p.store.verify p.store.scriptLength.toNat p.store.header.checksum = true)
    {reports : List Bytes} (appends : ∀ report ∈ reports, asksForFlush report = false) :
    (p.setReports reports).store.header = p.store.header ∧
    (p.store.Keeps (p.setReports reports).store ↔
      ∀ i < p.store.scriptLength.toNat, ∀ v, p.draft (fun _ => none) reports i = some v →
        v = p.store.scriptByte i) := by
  have laid := over_setReports (.refl p.store) size (refuses_of_appends appends)
  exact ⟨laid.header, laid.keeps_iff script verify⟩

/-- A programmer that has heard nothing yet, on a store with a script of one byte. -/
def oneByte : Programmer Memory :=
  new (.ofScript [0x00])

theorem keeps_iff_draft_oneByte :
    oneByte.store.size = storeSize ∧ oneByte.store.hasScript = true ∧
    oneByte.store.verify oneByte.store.scriptLength.toNat oneByte.store.header.checksum = true ∧
    (∀ report ∈ [[0x04], [0x03, 0x01, 0x00, 0x00]], asksForFlush report = false) ∧
    (oneByte.setReports [[0x04], [0x03, 0x01, 0x00, 0x00]]).store.header = oneByte.store.header ∧
    (oneByte.store.Keeps (oneByte.setReports [[0x04], [0x03, 0x01, 0x00, 0x00]]).store ↔
      ∀ i < oneByte.store.scriptLength.toNat, ∀ v,
        oneByte.draft (fun _ => none) [[0x04], [0x03, 0x01, 0x00, 0x00]] i = some v →
        v = oneByte.store.scriptByte i) :=
  have size : oneByte.store.size = storeSize := by decide +kernel
  have script : oneByte.store.hasScript = true := by decide +kernel
  have verify : oneByte.store.verify oneByte.store.scriptLength.toNat oneByte.store.header.checksum =
    true := by decide +kernel
  have appends : ∀ report ∈ [[0x04], [0x03, 0x01, 0x00, 0x00]], asksForFlush report = false := by decide
  ⟨size, script, verify, appends, keeps_iff_draft oneByte size script verify appends⟩

/-- One byte appended to a new session is enough to change a committed script of one byte. -/
theorem not_keeps_after_append :
    ¬ ∀ p : Programmer Memory, p.store.size = storeSize → p.store.hasScript = true →
      p.store.verify p.store.scriptLength.toNat p.store.header.checksum = true →
      ∀ reports : List Bytes, (∀ report ∈ reports, asksForFlush report = false) →
      p.store.Keeps (p.setReports reports).store := by
  intro keeps
  have kept := keeps oneByte (by decide +kernel) (by decide +kernel) (by decide +kernel)
    [[0x03, 0x01, 0x00, 0x02]] (by decide)
  have bytes := kept.script
  revert bytes
  decide +kernel

/-! A session that goes on behind the committed script, and is not reset, does not touch it. -/

theorem receive_behind {n : Nat} {report : Bytes} (behind : n ≤ p.session.offset)
    (fresh : ∀ i < n, d i = none) (quiet : asksForFlush report = false)
    (onward : Request.ofReport? report ≠ some .reset) :
    n ≤ (p.session.receive p.store report).session.offset ∧
    ∀ i < n, d.note (Request.ofReport? report) (p.session.receive p.store report).reply i = none := by
  have effect := Session.effect_receive p.session p.store report
  have other : ∀ request, Request.ofReport? report = some request → ¬request.Rewrites := by
    intro request asked rewrites
    rw [(asksForFlush_iff report).mpr ⟨request, asked, rewrites⟩] at quiet
    cases quiet
  generalize Request.ofReport? report = asked at effect onward other ⊢
  generalize p.session.receive p.store report = outcome at effect ⊢
  cases effect with
  | refused why =>
    rw [Draft.note_refused]
    exact ⟨behind, fresh⟩
  | appended full fits =>
    rename_i length payload
    refine ⟨Nat.le_add_right_of_le behind, ?_⟩
    intro i inside
    show overlaid d (p.session.offset + length - length) _ i = none
    rw [Nat.add_sub_cancel, overlaid_of_lt (Nat.lt_of_lt_of_le inside behind), fresh i inside]
  | wrote | committed | mismatched => exact absurd trivial (other _ rfl)
  | reset => exact absurd rfl onward
  | read | told | left => exact ⟨behind, fresh⟩

theorem draft_behind {n : Nat} {reports : List Bytes} (behind : n ≤ p.session.offset)
    (fresh : ∀ i < n, d i = none)
    (onward : ∀ report ∈ reports, asksForFlush report = false ∧ Request.ofReport? report ≠ some .reset) :
    ∀ i < n, p.draft d reports i = none := by
  induction reports generalizing p d with
  | nil => exact fresh
  | cons report reports ih =>
    obtain ⟨quiet, goes⟩ := onward report List.mem_cons_self
    obtain ⟨behind', fresh'⟩ := receive_behind behind fresh quiet goes
    refine ih ?_ fresh' fun r mem => onward r (List.mem_cons_of_mem report mem)
    rw [session_setReport]
    exact behind'

theorem keeps_of_appends_behind [LawfulMedium μ] (size : p.store.size = storeSize)
    (script : p.store.hasScript = true)
    (verify : p.store.verify p.store.scriptLength.toNat p.store.header.checksum = true)
    (behind : p.store.scriptLength.toNat ≤ p.session.offset) {reports : List Bytes}
    (onward : ∀ report ∈ reports, asksForFlush report = false ∧ Request.ofReport? report ≠ some .reset) :
    p.store.Keeps (p.setReports reports).store := by
  have appends : ∀ report ∈ reports, asksForFlush report = false :=
    fun report mem => (onward report mem).1
  have laid := over_setReports (.refl p.store) size (refuses_of_appends appends)
  rw [laid.keeps_iff script verify]
  intro i inside v drafted
  rw [draft_behind behind (fun _ _ => rfl) onward i inside] at drafted
  cases drafted

end Programmer

end Autotype
