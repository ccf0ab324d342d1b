import Autotype.Proofs.Checked
import Autotype.Proofs.Replies

/-!
# No report crashes the device

The handlers of the requests are taken up with every check in place. Each of them looks at a length before it
uses it, so that its checks hold, and does what its counterpart without checks does (`Checked.handle_ok`). So
a whole report is taken in without a crash (`Checked.receive_ok`), whatever was taken in before it.
-/

namespace Autotype

namespace Checked

variable {μ : Type} [Medium μ]

/-- What a handler leaves: a response or a refusal, the session and the store. -/
structure Handled (μ : Type) where
  result : Except Refusal Response
  session : Session
  store : Store μ

/-! ## The handlers -/

/-- What is wrong with a span of addresses. -/
def spanFault? (address length most : Nat) : Checked (Option Refusal) :=
  if storeSize ≤ address then .ok (some .invalidAddress)
  else do
    let stop ← add sizes address length
    return if length = 0 ∨ most < length ∨ storeSize < stop then some .invalidLength else none

def write (s : Session) (store : Store μ) (f : Bytes) : Checked (Handled μ) := do
  let address ← word f 1
  let length ← word f 3
  match ← spanFault? address.toNat length.toNat Request.maxWrite with
  | some why => return ⟨.error why, s, store⟩
  | none =>
    let store ← writeBlock store address.toNat 0 (← data f 5 length.toNat)
    return ⟨.ok (← (← Response.status .ok).pushWord length), s, store⟩

def read (s : Session) (store : Store μ) (f : Bytes) : Checked (Handled μ) := do
  let address ← word f 1
  let length ← word f 3
  match ← spanFault? address.toNat length.toNat Request.maxRead with
  | some why => return ⟨.error why, s, store⟩
  | none =>
    let r ← (← Response.status .ok).pushWord length
    return ⟨.ok (← r.extend (← readBlock store address.toNat 0 length.toNat)), s, store⟩

/-- Appends data from place `i` on, and takes them into the checksum one by one. -/
def appendAll (store : Store μ) (offset : Nat) (checksum : UInt16) : Nat → Bytes → Checked (UInt16 × Store μ)
  | _, [] => .ok (checksum, store)
  | i, b :: bs => do
    let a ← add words (← add words scriptStart offset) (i % words)
    appendAll (← writeByte store a b) offset (Checksum.feed checksum b) (i + 1) bs

def append (s : Session) (store : Store μ) (f : Bytes) : Checked (Handled μ) := do
  let length ← word f 1
  if length = 0 ∨ Request.maxAppend < length.toNat ∨
      (address? s.offset length.toNat).all (decide <| maxScript < ·) then
    return ⟨.error .invalidLength, s, store⟩
  let (checksum, store) ← appendAll store s.offset s.checksum 0 (← data f 3 length.toNat)
  let offset ← add words s.offset length.toNat
  let r ← (← Response.status .ok).pushWord (.ofNat offset)
  return ⟨.ok (← r.pushWord checksum), { s with offset := offset, checksum := checksum }, store⟩

/-- The checksum that a commit is compared with. -/
def actualChecksum (s : Session) (store : Store μ) (fromStore : Bool) (length : Nat) : Checked UInt16 :=
  if fromStore then scriptChecksum store length else .ok s.checksum

def commitScript (s : Session) (store : Store μ) (f : Bytes) : Checked (Handled μ) := do
  let options ← index f 1
  let version ← index f 2
  let flags ← index f 3
  let delay ← word f 4
  let length ← word f 6
  let expected ← word f 8
  if length = 0 ∨ maxScript < length.toNat then return ⟨.error .invalidLength, s, store⟩
  let actual ← actualChecksum s store (options &&& Request.fromStoreOption != 0) length.toNat
  if actual ≠ expected then return ⟨.error .checksumMismatch, s.restarted, ← invalidate store⟩
  let store ← commit store ⟨version, flags, delay, length, expected⟩
  return ⟨.ok (← Response.status .ok), s.restarted, store⟩

def summary (s : Session) (store : Store μ) : Checked (Handled μ) := do
  let r ← (← Response.status .ok).push firmwareVersion
  let r ← r.pushWord (.ofNat storeSize)
  let r ← r.push (.ofNat reportSize)
  let r ← r.pushWord s.checksum
  let r ← r.pushWord (.ofNat s.offset)
  return ⟨.ok { r with length := reportSize }, s, store⟩

def handle (s : Session) (store : Store μ) (f : Bytes) : UInt8 → Checked (Handled μ)
  | Request.writeCommand => write s store f
  | Request.readCommand => read s store f
  | Request.appendCommand => append s store f
  | Request.resetCommand => do return ⟨.ok (← Response.status .ok), s.restarted, store⟩
  | Request.commitCommand => commitScript s store f
  | Request.statusCommand => summary s store
  | Request.exitCommand => .ok ⟨.ok {}, { s with exitRequested := true }, store⟩
  | _ => .ok ⟨.error .invalidCommand, s, store⟩

/-- The response to send, if any. -/
def Handled.response (h : Handled μ) : Checked Response :=
  match h.result with
  | .ok r => .ok r
  | .error why => Response.status (.refused why)

/-- Takes in a report: the bytes of the response, the session and the store after it. -/
def receive (s : Session) (store : Store μ) (report : Bytes) : Checked (Bytes × Session × Store μ) :=
  match report with
  | [] => do return (← (← Response.status (.refused .invalidCommand)).bytes, s, store)
  | command :: _ => do
    let handled ← handle s store (← frame report) command
    return (← (← handled.response).bytes, handled.session, handled.store)

/-! ## Their checks hold -/

/-- What a handler leaves where nothing crashes. -/
def Handled.ofOutcome (o : Outcome μ) : Handled μ where
  result :=
    match o.reply with
    | .status (.refused why) => .error why
    | reply => .ok (.ofBytes reply.encode)
  session := o.session
  store := o.store

variable (s : Session) (store : Store μ) (f : Vector UInt8 reportSize)

theorem spanFault?_ok (address length : UInt16) (most : Nat) :
    spanFault? address.toNat length.toNat most =
      .ok (Session.spanFault? address.toNat length.toNat most) := by
  have fits : address.toNat + length.toNat < sizes := by
    have first := address.toNat_lt
    have second := length.toNat_lt
    simp only [sizes]
    omega
  rw [spanFault?, Session.spanFault?, add_ok fits, ok_bind]
  split <;> rfl

theorem write_ok : write s store f.toList = .ok (.ofOutcome (s.write store (Word.ofBytes f[1] f[2]).toNat
    (Word.ofBytes f[3] f[4]).toNat (f.toList.drop 5))) := by
  simp only [write, word_frame f (show 1 + 1 < reportSize by decide),
    word_frame f (show 3 + 1 < reportSize by decide), ok_bind, spanFault?_ok, Session.write]
  generalize Word.ofBytes f[1] f[1 + 1] = address
  generalize Word.ofBytes f[3] f[3 + 1] = length
  rcases Session.spanFault?_cases address.toNat length.toNat Request.maxWrite with
    ⟨why, fault, -⟩ | ⟨fault, -, short, -⟩
  · rw [fault]
    rfl
  · have room : 5 + length.toNat ≤ reportSize := Nat.add_le_add_left short 5
    simp only [fault, data_frame f room, ok_bind, writeBlock_ok, Response.status_ok,
      Response.pushWord_status_ok, pure_eq_ok, Handled.ofOutcome, Reply.encode, UInt16.ofNat_toNat,
      Nat.add_zero]

theorem read_ok : read s store f.toList = .ok (.ofOutcome (s.read store (Word.ofBytes f[1] f[2]).toNat
    (Word.ofBytes f[3] f[4]).toNat)) := by
  simp only [read, word_frame f (show 1 + 1 < reportSize by decide),
    word_frame f (show 3 + 1 < reportSize by decide), ok_bind, spanFault?_ok, Session.read]
  generalize Word.ofBytes f[1] f[1 + 1] = address
  generalize Word.ofBytes f[3] f[3 + 1] = length
  rcases Session.spanFault?_cases address.toNat length.toNat Request.maxRead with
    ⟨why, fault, -⟩ | ⟨fault, -, short, -⟩
  · rw [fault]
    rfl
  · have long := store.length_readBlock address.toNat length.toNat
    have room : (Status.code .ok :: Word.bytes length).length +
        (store.readBlock address.toNat length.toNat).length ≤ reportSize := by
      rw [long]
      exact Nat.add_le_add_left short 3
    simp only [fault, ok_bind, Response.status_ok, Response.pushWord_status_ok,
      readBlock_ok, Nat.add_zero, Response.extend_ok room, pure_eq_ok, Handled.ofOutcome,
      Reply.encode, long, UInt16.ofNat_toNat]

theorem appendAll_ok (offset : Nat) (checksum : UInt16) {i : Nat} {bs : Bytes}
    (fits : scriptStart + offset + i + bs.length ≤ words) :
    appendAll store offset checksum i bs =
      .ok (Checksum.feedAll checksum bs, store.writeBlock (scriptStart + offset + i) bs) := by
  induction bs generalizing store checksum i with
  | nil => rfl
  | cons b bs ih =>
    rw [List.length_cons] at fits
    have small : i % words = i := Nat.mod_eq_of_lt (by omega)
    simp only [appendAll, small, add_ok (show scriptStart + offset < words by omega),
      add_ok (show scriptStart + offset + i < words by omega), ok_bind, writeByte_ok]
    exact ih _ _ (by omega)

theorem append_ok : append s store f.toList = .ok (.ofOutcome (s.append store (Word.ofBytes f[1] f[2]).toNat
    (f.toList.drop 3))) := by
  simp only [append, word_frame f (show 1 + 1 < reportSize by decide), ok_bind, Session.append]
  generalize Word.ofBytes f[1] f[1 + 1] = length
  have below : maxScript < words := by decide
  have wrong : (length = 0 ∨ Request.maxAppend < length.toNat ∨
      ((address? s.offset length.toNat).all (decide <| maxScript < ·)) = true) ↔
      (length.toNat = 0 ∨ Request.maxAppend < length.toNat ∨ maxScript < s.offset + length.toNat) := by
    have zero : length = 0 ↔ length.toNat = 0 := UInt16.toNat_inj.symm
    by_cases word : s.offset + length.toNat < words
    · rw [address?_some word, Option.all_some, decide_eq_true_iff, zero]
    · rw [address?, if_neg word, zero]
      exact or_congr_right (or_congr_right (iff_of_true rfl (by omega)))
  by_cases refused : length.toNat = 0 ∨ Request.maxAppend < length.toNat ∨
      maxScript < s.offset + length.toNat
  · rw [if_pos refused, if_pos (wrong.mpr refused)]
    rfl
  · rw [if_neg refused, if_neg (mt wrong.mp refused)]
    have room : 3 + length.toNat ≤ reportSize :=
      Nat.add_le_add_left (show length.toNat ≤ Request.maxAppend by omega) 3
    have fits : scriptStart + s.offset + 0 + ((f.toList.drop 3).take length.toNat).length ≤ words := by
      have taken := List.length_take_le length.toNat (f.toList.drop 3)
      have region : scriptStart + maxScript ≤ words := by decide
      omega
    have three : (Status.code .ok :: Word.bytes (.ofNat (s.offset + length.toNat))).length + 1 <
        reportSize := show 3 + 1 < reportSize by decide
    simp only [data_frame f room, ok_bind, appendAll_ok store _ _ fits,
      add_ok (show s.offset + length.toNat < words by omega), Response.status_ok,
      Response.pushWord_status_ok, Response.pushWord_ok _ three]
    rfl

theorem actualChecksum_ok (fromStore : Bool) (length : Nat) :
    actualChecksum s store fromStore length =
      .ok (if fromStore then store.scriptChecksum length else s.checksum) := by
  rw [actualChecksum, scriptChecksum_ok]
  exact (apply_ite Except.ok _ _ _).symm

theorem commitScript_ok : commitScript s store f.toList =
    .ok (.ofOutcome (s.commit store (f[1] &&& Request.fromStoreOption != 0)
      { version := f[2], flags := f[3], delay := Word.ofBytes f[4] f[5],
        length := Word.ofBytes f[6] f[7], checksum := Word.ofBytes f[8] f[9] })) := by
  simp only [commitScript, index_frame f (show 1 < reportSize by decide),
    index_frame f (show 2 < reportSize by decide), index_frame f (show 3 < reportSize by decide),
    word_frame f (show 4 + 1 < reportSize by decide), word_frame f (show 6 + 1 < reportSize by decide),
    word_frame f (show 8 + 1 < reportSize by decide), ok_bind, Session.commit]
  generalize Word.ofBytes f[6] f[6 + 1] = length
  generalize Word.ofBytes f[8] f[8 + 1] = expected
  by_cases wrong : length = 0 ∨ maxScript < length.toNat
  · rw [if_pos wrong, if_pos wrong]
    rfl
  · rw [if_neg wrong, if_neg wrong, actualChecksum_ok, ok_bind]
    generalize (if (f[1] &&& Request.fromStoreOption != 0) = true then
      store.scriptChecksum length.toNat else s.checksum) = actual
    by_cases agrees : actual = expected
    · rw [if_neg (not_not_intro agrees), if_pos agrees, commit_ok, ok_bind, Response.status_ok]
      rfl
    · rw [if_pos agrees, if_neg agrees, invalidate_ok]
      rfl

omit [Medium μ] in
theorem summary_ok : summary s store = .ok (.ofOutcome ⟨.summary s.offset s.checksum, s, store⟩) :=
  rfl

/-- Every handler does what its counterpart without checks does. -/
theorem handle_ok : handle s store f.toList f[0] = .ok (.ofOutcome
    (match Request.ofFrame? f with
      | some request => s.handle store request
      | none => ⟨.refused .invalidCommand, s, store⟩)) := by
  unfold handle Request.ofFrame?
  generalize f[0] = command
  split
  · exact write_ok s store f
  · exact read_ok s store f
  · exact append_ok s store f
  · rfl
  · exact commitScript_ok s store f
  · exact summary_ok s store
  · rfl
  · simp only [Handled.ofOutcome]
    rfl

omit [Medium μ] in
theorem response_ofOutcome (o : Outcome μ) :
    (Handled.ofOutcome o).response = .ok (.ofBytes o.reply.encode) := by
  obtain ⟨reply, session, store⟩ := o
  cases reply with
  | status status =>
    cases status with
    | ok => rfl
    | refused why => exact Response.status_ok (.refused why)
  | _ => rfl

end Checked

/-! ## Cut and filled up reports -/

theorem Reply.getD_padded (bs : Bytes) (i : Nat) : (padded bs).getD i 0 = bs.getD i 0 := by
  rw [padded, List.getD_eq_getElem?_getD, List.getD_eq_getElem?_getD, List.getElem?_append]
  split
  · rfl
  · next past =>
    rw [List.getElem?_eq_none (Nat.le_of_not_lt past), List.getElem?_replicate]
    split <;> rfl

namespace Session

variable {μ : Type} [Medium μ] (s : Session) (store : Store μ)

theorem receive_padded {report : Bytes} (some : report ≠ []) :
    s.receive store ((Reply.padded report).take reportSize) = s.receive store report := by
  have some' : Reply.padded report ≠ [] := List.append_ne_nil_of_left_ne_nil some _
  have framed : Request.frame (Reply.padded report) = Request.frame report := by
    refine Vector.ext fun i inside => ?_
    rw [Request.getElem_frame _ inside, Request.getElem_frame _ inside, Reply.getD_padded]
  rw [receive_take, receive, receive, Request.ofReport?_eq some, Request.ofReport?_eq some', framed]

/-! ## Reports one after the other -/

/-- No request leads past the end of the script region. -/
theorem offset_receive (report : Bytes) (inside : s.offset ≤ maxScript) :
    (s.receive store report).session.offset ≤ maxScript := by
  have effect := effect_receive s store report
  generalize s.receive store report = outcome at effect ⊢
  generalize Request.ofReport? report = asked at effect
  cases effect with
  | appended full fits => exact fits
  | reset | committed | mismatched => exact Nat.zero_le _
  | _ => exact inside

end Session

namespace Checked

variable {μ : Type} [Medium μ]

/-- Nothing crashes while a report is taken in: all is done as without checks. -/
theorem receive_ok (s : Session) (store : Store μ) (report : Bytes) :
    receive s store report = .ok ((s.receive store report).reply.encode,
      (s.receive store report).session, (s.receive store report).store) := by
  have short := Session.length_encode_receive_le s store report
  cases report with
  | nil => rfl
  | cons command rest =>
    have first := Request.frame_zero command rest
    obtain ⟨outcome, taken⟩ : ∃ o, o = s.receive store (command :: rest) := ⟨_, rfl⟩
    rw [← taken] at short ⊢
    rw [Session.receive, Request.ofReport?_eq (List.cons_ne_nil _ _)] at taken
    rw [receive, frame_ok, ok_bind]
    generalize Request.frame (command :: rest) = f at first taken ⊢
    have handled : handle s store f.toList command = .ok (.ofOutcome outcome) := by
      rw [taken, ← first]
      exact handle_ok s store f
    rw [handled, ok_bind, response_ofOutcome, ok_bind, Response.bytes_ok short]
    rfl

/-- The session after reports that came one after the other, each on a store of its own. -/
def after (calls : List (Store μ × Bytes)) : Checked Session :=
  calls.foldlM (fun s call => do return (← receive s call.1 call.2).2.1) {}

/-- No report leads to a crash, and none leads past the end of the script region. -/
theorem after_ok (calls : List (Store μ × Bytes)) : ∃ s, after calls = .ok s ∧ s.offset ≤ maxScript := by
  have step : ∀ s : Session, s.offset ≤ maxScript → ∃ t : Session,
      calls.foldlM (fun s call => do return (← receive s call.1 call.2).2.1) s = (.ok t : Checked Session) ∧
        t.offset ≤ maxScript := by
    induction calls with
    | nil => exact fun s inside => ⟨s, rfl, inside⟩
    | cons call calls ih =>
      intro s inside
      rw [List.foldlM_cons, receive_ok]
      exact ih _ (s.offset_receive call.1 call.2 inside)
  exact step {} (Nat.zero_le _)

/-- Any reports are taken in without a crash, on whatever stores and media, and so is the next one: every sum
stays a word or a size, every index and slice lies in its array, and of the medium only cells are used that it
reports and that the store has room for. The response is that of the session without checks. It is empty just
if the report asks to leave, and otherwise has one, three or five bytes, or three more than a read asked for,
or it fills a report; it is never longer. A report that is not empty may as well be cut or filled up with zeros
to its full size. -/
theorem never_crashes (calls : List (Store μ × Bytes)) (store : Store μ) (report : Bytes) :
    ∃ s, after calls = .ok s ∧ s.offset ≤ maxScript ∧
      receive s store report = .ok ((s.receive store report).reply.encode,
        (s.receive store report).session, (s.receive store report).store) ∧
      ((s.receive store report).reply.encode = [] ↔ report.head? = some Request.exitCommand) ∧
      ((s.receive store report).reply.encode.length ∈ [0, 1, 3, 5, reportSize] ∨
        ∃ address length, Request.ofReport? report = some (.read address length) ∧
          length ≤ Request.maxRead ∧ (s.receive store report).reply.encode.length = 3 + length) ∧
      (s.receive store report).reply.encode.length ≤ reportSize ∧
      (report = [] ∨
        receive s store ((Reply.padded report).take reportSize) = receive s store report) := by
  obtain ⟨s, reached, inside⟩ := after_ok calls
  refine ⟨s, reached, inside, receive_ok s store report, s.encode_receive_eq_nil_iff store report,
    s.length_encode_receive store report, s.length_encode_receive_le store report, ?_⟩
  by_cases empty : report = []
  · exact .inl empty
  · refine .inr ?_
    rw [receive_ok, receive_ok, Session.receive_padded s store empty]

end Checked

end Autotype
