import Autotype.Engine.Basic
import Autotype.Proofs.Acceptance
import Autotype.Proofs.Committed
import Autotype.Proofs.Contact
import Autotype.Store.Memory
import Mathlib.Logic.Relation

/-!
# Uploading a script

An upload is a reset, the script in chunks, and a commit of its header, with idle contacts anywhere in
between. While it is under way the programmer has got some first part of the script, which its offset,
its checksum and the cells all speak of (`Uploading`); a chunk makes that part longer, and the commit of
the whole puts the header in front of it.
-/

namespace Autotype

/-- One step of an upload. -/
inductive Part where
  | reset
  | append (chunk : Bytes)
  | commit (header : Header)

namespace Part

/-- Whether a report asks for a step. -/
def AskedBy (report : Bytes) : Part → Prop
  | .reset => Request.ofReport? report = some .reset
  | .append chunk => ∃ payload, payload.take chunk.length = chunk ∧
      Request.ofReport? report = some (.append chunk.length payload)
  | .commit header => ∃ fromStore, Request.ofReport? report = some (.commit fromStore header)

/-- A report that asks for a step; the options matter to a commit alone. -/
def report (options : UInt8) : Part → Bytes
  | .reset => [Request.resetCommand]
  | .append chunk => Request.appendCommand :: Word.bytes (.ofNat chunk.length) ++ chunk
  | .commit header => Request.commitCommand :: options :: header.encode.toList

/-- A step can be taken: no chunk is empty or too long for a report. -/
def Fits : Part → Prop
  | .append chunk => chunk ≠ [] ∧ chunk.length ≤ Request.maxAppend
  | _ => True

instance : DecidablePred Fits := fun part =>
  match part with
  | .append chunk => inferInstanceAs (Decidable (chunk ≠ [] ∧ chunk.length ≤ Request.maxAppend))
  | .reset | .commit _ => inferInstanceAs (Decidable True)

/-! Such a report asks for its step whatever follows in it. -/

theorem askedBy_report_reset (options : UInt8) (rest : Bytes) :
    Part.reset.AskedBy (Part.reset.report options ++ rest) := by
  have some : Part.reset.report options ++ rest ≠ [] := List.cons_ne_nil _ _
  exact (Request.ofReport?_eq some).trans
    (Request.ofFrame?_reset (Request.getElem_frame _ (by decide)))

theorem askedBy_report_append (options : UInt8) {chunk : Bytes}
    (short : chunk.length ≤ Request.maxAppend) (rest : Bytes) :
    (Part.append chunk).AskedBy ((Part.append chunk).report options ++ rest) := by
  have some : (Part.append chunk).report options ++ rest ≠ [] := List.cons_ne_nil _ _
  obtain ⟨f, framed⟩ : ∃ f, f = Request.frame ((Part.append chunk).report options ++ rest) :=
    ⟨_, rfl⟩
  have asked := Request.ofFrame?_append
    (framed ▸ Request.getElem_frame _ (by decide) : f[0] = Request.appendCommand)
  have length : (Word.ofBytes f[1] f[2]).toNat = chunk.length := by
    rw [framed, Request.getElem_frame _ (by decide), Request.getElem_frame _ (by decide)]
    show (Word.ofBytes (Word.low _) (Word.high _)).toNat = chunk.length
    rw [Word.ofBytes_low_high]
    exact Nat.mod_eq_of_lt (Nat.lt_of_le_of_lt short (by decide))
  rw [length, framed, ← Request.ofReport?_eq some] at asked
  refine ⟨_, ?_, asked⟩
  have room : chunk.length ≤ reportSize - 3 := short
  apply List.ext_getElem
  · rw [List.length_take, List.length_drop, Vector.length_toList]
    omega
  · intro i _ inside
    rw [List.getElem_take, List.getElem_drop, Vector.getElem_toList, Request.getElem_frame _ (by omega),
      Nat.add_comm]
    show (chunk ++ rest).getD i 0 = chunk[i]
    rw [List.getD_eq_getElem?_getD, List.getElem?_append_left inside, List.getElem?_eq_getElem inside,
      Option.getD_some]

theorem askedBy_report_commit (options : UInt8) (header : Header) (rest : Bytes) :
    (Part.commit header).AskedBy ((Part.commit header).report options ++ rest) := by
  have some : (Part.commit header).report options ++ rest ≠ [] := List.cons_ne_nil _ _
  obtain ⟨f, framed⟩ : ∃ f, f = Request.frame ((Part.commit header).report options ++ rest) :=
    ⟨_, rfl⟩
  have asked := Request.ofFrame?_commit
    (framed ▸ Request.getElem_frame _ (by decide) : f[0] = Request.commitCommand)
  have fields : Header.mk f[2] f[3] (Word.ofBytes f[4] f[5]) (Word.ofBytes f[6] f[7])
      (Word.ofBytes f[8] f[9]) = header := by
    simp only [framed, Request.getElem_frame]
    exact Header.decode_encode header
  rw [fields, framed, ← Request.ofReport?_eq some] at asked
  exact ⟨_, asked⟩

end Part

namespace Programmer

variable {μ : Type} [Medium μ]

/-- Whether the contacts from one programmer to another take these steps, with any idle contacts around
them; the status that waits to be fetched after each step is written down. -/
inductive Serves : Programmer μ → List Part → List (Option Status) → Programmer μ → Prop
  | done {p : Programmer μ} : Serves p [] [] p
  | idle {p q p' : Programmer μ} {parts : List Part} {answers : List (Option Status)}
    (idles : p.Idles q) (later : Serves q parts answers p') : Serves p parts answers p'
  | part {p p' : Programmer μ} {part : Part} {parts : List Part} {answers : List (Option Status)}
    {report : Bytes} (asked : part.AskedBy report)
    (later : Serves (p.setReport report) parts answers p') :
    Serves p (part :: parts) ((p.setReport report).status? :: answers) p'

/-- Whether the programmer has got a first part of a script, over these contents of the cells. -/
structure Uploading (p : Programmer μ) (original : Nat → UInt8) (sent : Bytes) : Prop where
  size : p.store.size = storeSize
  cells : p.store.readByte = overlaid original scriptStart sent
  offset : p.session.offset = sent.length
  checksum : p.session.checksum = Checksum.ofBytes sent

theorem Uploading.same {p q : Programmer μ} {original : Nat → UInt8} {sent : Bytes}
    (uploading : p.Uploading original sent) (same : p.Same q) : q.Uploading original sent where
  size := same.size.trans uploading.size
  cells := same.cells.trans uploading.cells
  offset := same.offset.trans uploading.offset
  checksum := same.checksum.trans uploading.checksum

variable [LawfulMedium μ] {p : Programmer μ} {report : Bytes}

/-! ## The three kinds of steps -/

/-- A programmer whose session and store are what is left of a request, before any flush. -/
def ofOutcome (outcome : Outcome μ) : Programmer μ where
  session := outcome.session
  store := outcome.store

omit [LawfulMedium μ] in
theorem received_reset (asked : Part.reset.AskedBy report) :
    p.session.receive p.store report = ⟨.ok, p.session.restarted, p.store⟩ :=
  Session.receive_eq asked

omit [LawfulMedium μ] in
/-- Before a reset anything may have been got, after it nothing was. -/
theorem uploading_restarted (size : p.store.size = storeSize) :
    (ofOutcome ⟨.ok, p.session.restarted, p.store⟩).Uploading p.store.readByte [] :=
  ⟨size, overlaid_nil.symm, rfl, rfl⟩

variable {original : Nat → UInt8} {sent : Bytes}

theorem Uploading.received_append {chunk : Bytes} (uploading : p.Uploading original sent)
    (asked : (Part.append chunk).AskedBy report) (fits : (Part.append chunk).Fits)
    (room : (sent ++ chunk).length ≤ maxScript) :
    (p.session.receive p.store report).reply.IsOk ∧
      (ofOutcome (p.session.receive p.store report)).Uploading original (sent ++ chunk) := by
  obtain ⟨payload, taken, parsed⟩ := asked
  have positive := List.length_pos_iff.mpr fits.1
  have offset := uploading.offset
  rw [List.length_append] at room
  rw [Session.receive_eq parsed, Session.handle,
    Session.append_of_fits positive fits.2 (by omega), taken]
  refine ⟨Reply.isOk_appended _ _, ?_, ?_, ?_, ?_⟩
  · exact (Store.size_writeBlock _ _ _).trans uploading.size
  · have inside : scriptStart + p.session.offset + chunk.length ≤ p.store.size := by
      have numbers := geometry
      rw [uploading.size]
      omega
    show (p.store.writeBlock (scriptStart + p.session.offset) chunk).readByte = _
    rw [Store.readByte_writeBlock_eq inside, offset, uploading.cells, overlaid_overlaid]
  · show p.session.offset + chunk.length = _
    rw [List.length_append, offset]
  · show Checksum.feedAll p.session.checksum chunk = _
    rw [uploading.checksum, Checksum.ofBytes, Checksum.ofBytes, Checksum.feedAll_append]

/-- The commit of the whole, under either checksum, puts the header in front of it. -/
theorem Uploading.received_commit {fromStore : Bool} {header : Header}
    (uploading : p.Uploading original sent)
    (asked : Request.ofReport? report = some (.commit fromStore header)) (nonempty : sent ≠ [])
    (room : sent.length ≤ maxScript) (length : header.length.toNat = sent.length)
    (checksum : header.checksum = Checksum.ofBytes sent) :
    p.session.receive p.store report = ⟨.ok, p.session.restarted, p.store.commit header⟩ ∧
      (p.store.commit header).readByte =
        overlaid (overlaid original scriptStart sent) 0 header.encode.toList := by
  have positive := List.length_pos_iff.mpr nonempty
  have script : p.store.script sent.length = sent := by
    refine Store.script_eq fun i inside => ?_
    rw [uploading.cells, overlaid_add inside]
  have agrees : (if fromStore then p.store.scriptChecksum header.length.toNat
      else p.session.checksum) = header.checksum := by
    rw [length, Store.scriptChecksum, script, uploading.checksum, checksum, ite_self]
  constructor
  · rw [Session.receive_eq asked]
    exact Session.commit_of_agrees (by omega) (by omega) agrees
  · rw [Store.readByte_commit, uploading.cells]
    rw [uploading.size]
    decide

/-! A flush after a step makes no difference to it. -/

theorem same_setReport (p : Programmer μ) (report : Bytes) :
    (ofOutcome (p.session.receive p.store report)).Same (p.setReport report) where
  cells := p.readByte_setReport report
  size := p.size_setReport report
  offset := congrArg Session.offset (p.session_setReport report)
  checksum := congrArg Session.checksum (p.session_setReport report)

theorem uploading_reset (size : p.store.size = storeSize) (asked : Part.reset.AskedBy report) :
    (p.setReport report).Uploading p.store.readByte [] ∧
      (p.setReport report).status? = some .ok := by
  have received := received_reset (p := p) asked
  refine ⟨Uploading.same ?_ (p.same_setReport report), ?_⟩
  · rw [received]
    exact uploading_restarted size
  · exact status?_setReport p report (congrArg Outcome.reply received) Reply.isOk_ok

theorem Uploading.append {chunk : Bytes} (uploading : p.Uploading original sent)
    (asked : (Part.append chunk).AskedBy report) (fits : (Part.append chunk).Fits)
    (room : (sent ++ chunk).length ≤ maxScript) :
    (p.setReport report).Uploading original (sent ++ chunk) ∧
      (p.setReport report).status? = some .ok := by
  obtain ⟨ok, next⟩ := uploading.received_append asked fits room
  exact ⟨next.same (p.same_setReport report), status?_setReport p report rfl ok⟩

theorem Uploading.commit {header : Header} (uploading : p.Uploading original sent)
    (asked : (Part.commit header).AskedBy report) (nonempty : sent ≠ [])
    (room : sent.length ≤ maxScript) (length : header.length.toNat = sent.length)
    (checksum : header.checksum = Checksum.ofBytes sent) :
    (p.setReport report).store.size = storeSize ∧
      (p.setReport report).store.readByte =
        overlaid (overlaid original scriptStart sent) 0 header.encode.toList ∧
      (p.setReport report).status? = some .ok := by
  obtain ⟨fromStore, parsed⟩ := asked
  obtain ⟨outcome, cells⟩ := uploading.received_commit parsed nonempty room length checksum
  refine ⟨?_, ?_, status?_setReport p report (congrArg Outcome.reply outcome) Reply.isOk_ok⟩
  · rw [size_setReport, outcome, Store.size_commit, uploading.size]
  · rw [readByte_setReport, outcome, cells]

/-! ## From the first step to the last -/

section

omit [LawfulMedium μ]

variable {p' : Programmer μ} {parts parts' : List Part} {answers : List (Option Status)}

/-- Steps one after the other can be told apart. -/
theorem Serves.split (serves : p.Serves (parts ++ parts') answers p') :
    ∃ q before after, answers = before ++ after ∧ p.Serves parts before q ∧ q.Serves parts' after p' := by
  generalize all : parts ++ parts' = steps at serves
  induction serves generalizing parts with
  | done =>
    obtain ⟨rfl, rfl⟩ := List.append_eq_nil_iff.mp all
    exact ⟨_, [], [], rfl, .done, .done⟩
  | idle idles later ih =>
    obtain ⟨q, before, after, rfl, first, second⟩ := ih all
    exact ⟨q, before, after, rfl, .idle idles first, second⟩
  | part asked later ih =>
    cases parts with
    | nil =>
      cases all
      exact ⟨_, [], _, rfl, .done, .part asked later⟩
    | cons part parts =>
      cases all
      obtain ⟨q, before, after, rfl, first, second⟩ := ih rfl
      exact ⟨q, _ :: before, after, rfl, .part asked first, second⟩

/-- Before a step there are idle contacts alone. -/
theorem Serves.next {part : Part} (serves : p.Serves (part :: parts) answers p') :
    ∃ q report later, Relation.ReflTransGen Idles p q ∧ part.AskedBy report ∧
      answers = (q.setReport report).status? :: later ∧ (q.setReport report).Serves parts later p' := by
  generalize all : part :: parts = steps at serves
  induction serves with
  | done => cases all
  | idle idles later ih =>
    obtain ⟨q, report, rest, waits, found⟩ := ih all
    exact ⟨q, report, rest, .head idles waits, found⟩
  | part asked later ih =>
    cases all
    exact ⟨_, _, _, .refl, asked, rfl, later⟩

/-- And so there are after the last step. -/
theorem Serves.rest (serves : p.Serves [] answers p') :
    answers = [] ∧ Relation.ReflTransGen Idles p p' := by
  generalize none : ([] : List Part) = steps at serves
  induction serves with
  | done => exact ⟨rfl, .refl⟩
  | idle idles later ih =>
    obtain ⟨quiet, waits⟩ := ih none
    exact ⟨quiet, .head idles waits⟩
  | part => cases none

/-- What idle contacts keep, and each chunk of a script makes one chunk longer, holds of the whole script in
the end. -/
theorem Serves.appends {P : Bytes → Programmer μ → Prop} {chunks : List Bytes} {script : Bytes}
    (serves : p.Serves (chunks.map .append) answers p')
    (idle : ∀ {sent p q}, P sent p → p.Idles q → P sent q)
    (append : ∀ {sent chunk report p}, P sent p → (Part.append chunk).AskedBy report →
      chunk ∈ chunks → sent ++ chunk <+: script →
      P (sent ++ chunk) (p.setReport report) ∧ (p.setReport report).status? = some .ok)
    (start : P sent p) (whole : sent ++ chunks.flatten = script) :
    (∀ answer ∈ answers, answer = some .ok) ∧ P script p' := by
  have waits : ∀ {sent p q}, P sent p → Relation.ReflTransGen Idles p q → P sent q := by
    intro sent p q known waits
    induction waits with
    | refl => exact known
    | tail _ idles ih => exact idle ih idles
  induction chunks generalizing sent p answers with
  | nil =>
    obtain ⟨rfl, idles⟩ := serves.rest
    rw [List.flatten_nil, List.append_nil] at whole
    exact ⟨fun _ among => absurd among List.not_mem_nil, whole ▸ waits start idles⟩
  | cons chunk chunks ih =>
    rw [List.flatten_cons, ← List.append_assoc] at whole
    obtain ⟨q, report, later, idles, asked, rfl, rest⟩ := serves.next
    obtain ⟨next, answered⟩ := append (waits start idles) asked List.mem_cons_self ⟨_, whole⟩
    obtain ⟨answers, done⟩ := ih rest
      (fun known asked among => append known asked (List.mem_cons_of_mem chunk among)) next whole
    exact ⟨List.forall_mem_cons.mpr ⟨answered, answers⟩, done⟩

end

theorem Same.of_idles {q : Programmer μ} (waits : Relation.ReflTransGen Idles p q) : p.Same q := by
  induction waits with
  | refl => exact ⟨rfl, rfl, rfl, rfl⟩
  | tail _ idles ih =>
    have next := idles.same
    exact ⟨next.cells.trans ih.cells, next.size.trans ih.size, next.offset.trans ih.offset,
      next.checksum.trans ih.checksum⟩

/-- The chunks that are still to come. -/
theorem Uploading.sends {p' : Programmer μ} {chunks : List Bytes} {answers : List (Option Status)}
    (uploading : p.Uploading original sent) (serves : p.Serves (chunks.map .append) answers p')
    (fits : ∀ chunk ∈ chunks, (Part.append chunk).Fits)
    (room : (sent ++ chunks.flatten).length ≤ maxScript) :
    (∀ answer ∈ answers, answer = some .ok) ∧ p'.Uploading original (sent ++ chunks.flatten) :=
  serves.appends (P := fun sent p => p.Uploading original sent) (fun known idles => known.same idles.same)
    (fun known asked among first => known.append asked (fits _ among) (Nat.le_trans first.length_le room))
    uploading rfl

/-- The chunks that are still to come, and the commit of the whole. -/
theorem Uploading.serves {p' : Programmer μ} {chunks : List Bytes} {header : Header}
    {answers : List (Option Status)} (uploading : p.Uploading original sent)
    (serves : p.Serves (chunks.map .append ++ [.commit header]) answers p')
    (fits : ∀ chunk ∈ chunks, (Part.append chunk).Fits)
    (nonempty : sent ++ chunks.flatten ≠ []) (room : (sent ++ chunks.flatten).length ≤ maxScript)
    (length : header.length.toNat = (sent ++ chunks.flatten).length)
    (checksum : header.checksum = Checksum.ofBytes (sent ++ chunks.flatten)) :
    (∀ answer ∈ answers, answer = some .ok) ∧ p'.store.size = storeSize ∧
      p'.store.readByte =
        overlaid (overlaid original scriptStart (sent ++ chunks.flatten)) 0 header.encode.toList := by
  obtain ⟨q, before, after, rfl, sends, commits⟩ := serves.split
  obtain ⟨answered, whole⟩ := uploading.sends sends fits room
  obtain ⟨q, report, later, waits, asked, rfl, ends⟩ := commits.next
  obtain ⟨rfl, waits'⟩ := ends.rest
  obtain ⟨size, cells, ok⟩ :=
    (whole.same (.of_idles waits)).commit asked nonempty room length checksum
  have same := Same.of_idles waits'
  refine ⟨?_, same.size.trans size, same.cells.trans cells⟩
  exact List.forall_mem_append.mpr ⟨answered, List.forall_mem_singleton.mpr ok⟩

end Programmer

/-! ## What is left behind -/

/-- Whether a medium, after an upload to what was there before, carries a script under a header, for
those who look at the cells and for those who open the medium as a store. -/
structure Uploaded {μ : Type} [Medium μ] (before after : μ) (header : Header) (script : Bytes) :
    Prop where
  headerCells : ∀ a, (inside : a < headerSize) → Medium.read after a = header.encode[a]
  scriptCells : ∀ i, (inside : i < script.length) →
    Medium.read after (scriptStart + i) = script[i]
  otherCells : ∀ a, scriptStart + script.length ≤ a → a < storeSize →
    Medium.read after a = Medium.read before a
  mounted : (Store.mount after).header = header
  valid : (Store.mount after).hasScript = true
  scriptByte : ∀ i, (inside : i < script.length) → (Store.mount after).scriptByte i = script[i]
  verified : (Store.mount after).verify header.length.toNat header.checksum = true
  /-- An engine, whatever it was doing before, starts at the beginning of just this script. -/
  starts : ∀ e : Engine, (e.start (Store.mount after)).state = .running ∧
    (e.start (Store.mount after)).pc = 0 ∧ (e.start (Store.mount after)).length = script.length

theorem Uploaded.holds {μ : Type} [Medium μ] {before after : μ} {header : Header} {script : Bytes}
    (uploaded : Uploaded before after header script) (length : header.length.toNat = script.length) :
    (Store.mount after).Holds script where
  valid := uploaded.valid
  length := by rw [uploaded.mounted, length]
  script := Store.script_eq uploaded.scriptByte

section

variable {μ : Type} [Medium μ]

/-- What is left behind follows from the contents alone. -/
theorem Uploaded.of_contents {before after : Store μ} {header : Header} {script : Bytes}
    (size : before.size = storeSize) (size' : after.size = storeSize)
    (cells : after.readByte =
      overlaid (overlaid before.readByte scriptStart script) 0 header.encode.toList)
    (version : header.version = Header.currentVersion) (nonempty : script ≠ [])
    (room : script.length ≤ maxScript) (length : header.length.toNat = script.length)
    (checksum : header.checksum = Checksum.ofBytes script) :
    Uploaded before.medium after.medium header script := by
  have numbers := geometry
  have headerLength : header.encode.toList.length = 8 := Vector.length_toList
  have positive := List.length_pos_iff.mpr nonempty
  have headerCells : ∀ a, (inside : a < headerSize) → after.readByte a = header.encode[a] := by
    intro a inside
    rw [cells, overlaid_zero (by omega), Vector.getElem_toList]
  have scriptCells : ∀ i, (inside : i < script.length) →
      after.readByte (scriptStart + i) = script[i] := by
    intro i inside
    rw [cells, overlaid_of_ge (by rw [headerLength]; omega), overlaid_add inside]
  have mounted : (Store.mount after.medium).header = header := by
    rw [Store.header_mount, Store.storedHeader_eq_iff]
    exact headerCells
  have valid : (Store.mount after.medium).hasScript = true := by
    rw [Store.hasScript, mounted, Header.isValid_iff, length]
    exact ⟨version, positive, room⟩
  have whole : (Store.mount after.medium).script script.length = script :=
    Store.script_eq scriptCells
  refine ⟨?_, ?_, ?_, mounted, valid, scriptCells, ?_, ?_⟩
  · intro a inside
    rw [← headerCells a inside, Store.readByte, if_pos (by omega)]
  · intro i inside
    rw [← scriptCells i inside, Store.readByte, if_pos (by omega)]
  · intro a behind inside
    have same : after.readByte a = before.readByte a := by
      rw [cells, overlaid_of_ge (by rw [headerLength]; omega), overlaid_of_ge behind]
    rwa [Store.readByte, Store.readByte, if_pos (by omega), if_pos (by omega)] at same
  · rw [Store.verify, Store.scriptChecksum, length, whole, checksum]
    simp only [positive, room, decide_true, Bool.and_self, beq_self_eq_true]
  · intro e
    refine ⟨if_pos valid, rfl, ?_⟩
    show (Store.scriptLength _).toNat = script.length
    rw [Store.scriptLength, if_pos valid, mounted, length]

variable [LawfulMedium μ]

/-- Whatever the programmer was doing and whatever its cells held, an upload of a script that fits, in
any chunks and with any idle contacts in between, is answered with success at each step and leaves the
script behind. -/
theorem Programmer.upload_round_trip {p p' : Programmer μ} {chunks : List Bytes} {header : Header}
    {answers : List (Option Status)} (size : p.store.size = storeSize)
    (fits : ∀ chunk ∈ chunks, (Part.append chunk).Fits) (nonempty : chunks.flatten ≠ [])
    (room : chunks.flatten.length ≤ maxScript) (version : header.version = Header.currentVersion)
    (length : header.length.toNat = chunks.flatten.length)
    (checksum : header.checksum = Checksum.ofBytes chunks.flatten)
    (serves : p.Serves (.reset :: (chunks.map .append ++ [.commit header])) answers p') :
    (∀ answer ∈ answers, answer = some .ok) ∧
      Uploaded p.store.medium p'.store.medium header chunks.flatten := by
  generalize parts : Part.reset :: (chunks.map .append ++ [.commit header]) = steps at serves
  -- whatever comes before the reset leaves the cells alone, and the reset forgets the rest
  have done : (∀ answer ∈ answers, answer = some .ok) ∧ p'.store.size = storeSize ∧
      p'.store.readByte =
        overlaid (overlaid p.store.readByte scriptStart chunks.flatten) 0 header.encode.toList := by
    induction serves with
    | done => cases parts
    | idle idles later ih =>
      rw [← idles.same.cells]
      exact ih (idles.same.size.trans size) parts
    | part asked later ih =>
      cases parts
      obtain ⟨uploading, answered⟩ := uploading_reset size asked
      obtain ⟨answers, done⟩ := uploading.serves later fits nonempty room length checksum
      refine ⟨?_, done⟩
      rw [answered]
      exact List.forall_mem_cons.mpr ⟨rfl, answers⟩
  obtain ⟨answered, size', cells⟩ := done
  exact ⟨answered, .of_contents size size' cells version nonempty room length checksum⟩

end

/-! ## An upload in two chunks -/

/-- A programmer in the middle of another upload, whose cells are all in use. -/
def Programmer.busy : Programmer Memory where
  session := { offset := 5, checksum := 7 }
  store := .mount { cells := .replicate storeSize 0x1A }

/-- A header of a script that taps one key. -/
def Header.oneTap : Header where
  version := currentVersion
  flags := 3
  delay := 2
  length := 3
  checksum := Checksum.ofBytes [0x06, 0x04, 0x00]

/-- There is a reading between the chunks, a report that means nothing before the commit, which asks for
the checksum of the cells, and the wish to leave at the end. -/
theorem Programmer.upload_round_trip_oneTap :
    ∃ answers p', busy.Serves
        (.reset :: ([[0x06, 0x04], [0x00]].map .append ++ [.commit .oneTap])) answers p' ∧
      (∀ answer ∈ answers, answer = some .ok) ∧
      Uploaded busy.store.medium p'.store.medium .oneTap [0x06, 0x04, 0x00] := by
  have fits : ∀ chunk ∈ [[0x06, 0x04], [0x00]], (Part.append chunk).Fits := by decide
  obtain ⟨answers, p', serves⟩ : ∃ answers p', busy.Serves
      (.reset :: ([[0x06, 0x04], [0x00]].map .append ++ [.commit .oneTap])) answers p' :=
    ⟨_, _, .part (Part.askedBy_report_reset 0 []) <|
      .part (Part.askedBy_report_append 0 (fits _ (by decide)).2 []) <|
      .idle (.asks [0x02, 0x00, 0x00, 0x08, 0x00] (.inl ⟨0, 8, by decide +kernel⟩)) <|
      .part (Part.askedBy_report_append 0 (fits _ (by decide)).2 []) <|
      .idle (.asks [0xEE] (.inr (.inr (.inr ⟨.invalidCommand, by decide, by decide +kernel⟩)))) <|
      .part (Part.askedBy_report_commit 1 _ []) <|
      .idle (.asks [0x07] (.inr (.inr (.inl (by decide +kernel))))) <|
      .done⟩
  exact ⟨answers, p', serves, upload_round_trip (by decide) fits (by decide) (by decide) (by decide)
    (by decide) (by decide +kernel) serves⟩

end Autotype
