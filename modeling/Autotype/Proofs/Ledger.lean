import Autotype.Proofs.Acceptance
import Autotype.Proofs.Committed
import Autotype.Store.Memory

/-!
# What a session remembers

A session keeps an offset, a checksum and whether it was asked to leave, and no bytes. A ledger keeps the
bytes as well, as far as reports and replies tell of them: those of the appends that were accepted since
the session last started anew. Offset and checksum are those of these bytes at any time
(`Ledger.Balanced`), whatever stores the requests were carried out on.
-/

namespace Autotype

/-! ## Cells out of reach -/

namespace Store

variable {μ : Type} [Medium μ] [LawfulMedium μ]

theorem read_writeByte_of_ne {s : Store μ} {a b : Nat} {v : UInt8} (other : a ≠ b) :
    Medium.read (s.writeByte a v).medium b = Medium.read s.medium b := by
  rw [writeByte]
  split
  · next inside => exact LawfulMedium.read_write_of_ne _ _ _ _ inside.1 other
  · rfl

theorem read_writeBlock_of_outside {s : Store μ} {start a : Nat} {bs : Bytes}
    (outside : a < start ∨ start + bs.length ≤ a) :
    Medium.read (s.writeBlock start bs).medium a = Medium.read s.medium a := by
  induction bs generalizing s start with
  | nil => rfl
  | cons b bs ih =>
    rw [List.length_cons] at outside
    rw [writeBlock, ih (by omega), read_writeByte_of_ne (by omega)]

end Store

namespace Session

variable {μ : Type} [Medium μ] (s : Session) (store : Store μ)

theorem session_write (address length : Nat) (payload : Bytes) :
    (s.write store address length payload).session = s := by
  rw [write]
  split <;> rfl

theorem session_read (address length : Nat) : (s.read store address length).session = s := by
  rw [read]
  split <;> rfl

/-- The session starts anew unless the length is wrong. -/
theorem session_commit (fromStore : Bool) (header : Header) :
    (s.commit store fromStore header).session =
      if 0 < header.length.toNat ∧ header.length.toNat ≤ maxScript then s.restarted else s := by
  have wrong : (header.length = 0 ∨ maxScript < header.length.toNat) ↔
      ¬(0 < header.length.toNat ∧ header.length.toNat ≤ maxScript) := by
    rw [← UInt16.toNat_inj, UInt16.toNat_zero]
    omega
  rw [commit]
  by_cases fits : 0 < header.length.toNat ∧ header.length.toNat ≤ maxScript
  · rw [if_neg (fun long => wrong.mp long fits), if_pos fits]
    dsimp only
    split <;> split <;> rfl
  · rw [if_pos (wrong.mpr fits), if_neg fits]

/-- An append reaches the script region alone, and not even that if it is refused. -/
theorem read_append [LawfulMedium μ] (length : Nat) (payload : Bytes) {a : Nat}
    (outside : a < scriptStart ∨ reservedAddress ≤ a) :
    Medium.read (s.append store length payload).store.medium a = Medium.read store.medium a := by
  by_cases fits : 0 < length ∧ length ≤ Request.maxAppend ∧ s.offset + length ≤ maxScript
  · rw [append_of_fits fits.1 fits.2.1 fits.2.2]
    have taken : (payload.take length).length ≤ length := List.length_take_le length payload
    have reserved := scriptStart_add_maxScript
    exact Store.read_writeBlock_of_outside (by omega)
  · rw [append_of_not_fits fits]

/-- Only the wish to leave is remembered as such, and nothing makes a session forget it. -/
theorem exitRequested_receive (report : Bytes) :
    (s.receive store report).session.exitRequested = true ↔
      s.exitRequested = true ∨ Request.ofReport? report = some .exit := by
  cases asked : Request.ofReport? report with
  | none =>
    rw [receive, asked]
    exact (or_iff_left (Option.some_ne_none Request.exit).symm).symm
  | some request =>
    rw [receive_eq asked]
    by_cases leaves : request = .exit
    · rw [leaves]
      exact iff_of_true rfl (.inr rfl)
    · rw [or_iff_left (fun same => leaves (Option.some.inj same))]
      cases request with
      | write address length payload => rw [handle, session_write]
      | read address length => rw [handle, session_read]
      | append length payload =>
        rw [handle, append]
        split <;> rfl
      | reset | status => rfl
      | commit fromStore header =>
        rw [handle, session_commit]
        split <;> rfl
      | exit => exact absurd rfl leaves

end Session

/-! ## Ledgers -/

/-- A session, and the bytes that were appended since it last started anew. -/
structure Ledger where
  session : Session := {}
  appended : Bytes := []

namespace Ledger

/-- What counts as appended after a request, if a report contained one, and the reply to it. -/
def note (appended : Bytes) : Option Request → Reply → Bytes
  | some (.append length payload), reply =>
    if reply.IsOk then appended ++ payload.take length else appended
  | some .reset, _ => []
  | some (.commit _ header), _ =>
    if 0 < header.length.toNat ∧ header.length.toNat ≤ maxScript then [] else appended
  | _, _ => appended

/-- Whether a session remembers the bytes that count as appended, and no others. -/
structure Balanced (l : Ledger) : Prop where
  offset : l.session.offset = l.appended.length
  checksum : l.session.checksum = Checksum.ofBytes l.appended
  room : l.appended.length ≤ maxScript

theorem balanced_new : Balanced {} :=
  ⟨rfl, rfl, Nat.zero_le _⟩

theorem balanced_restarted (s : Session) : Balanced ⟨s.restarted, []⟩ :=
  ⟨rfl, rfl, Nat.zero_le _⟩

variable {μ : Type} [Medium μ]

/-- Takes in a report, on the store that there is now. -/
def hear (l : Ledger) (call : Store μ × Bytes) : Ledger :=
  let outcome := l.session.receive call.1 call.2
  { session := outcome.session
    appended := note l.appended (Request.ofReport? call.2) outcome.reply }

/-- The ledger after these reports, each of them on the store that there was then. -/
def after (calls : List (Store μ × Bytes)) : Ledger :=
  calls.foldl hear {}

/-- What was accepted of an append stands in the ledger. -/
theorem Balanced.append {l : Ledger} (balanced : l.Balanced) (store : Store μ) {length : Nat}
    {payload : Bytes} (full : payload.length = Request.maxAppend) :
    Balanced
      ⟨(l.session.append store length payload).session,
        note l.appended (some (.append length payload))
          (l.session.append store length payload).reply⟩ := by
  have ok := l.session.isOk_append_iff store length payload
  rw [note]
  by_cases fits : 0 < length ∧ length ≤ Request.maxAppend ∧ l.session.offset + length ≤ maxScript
  · have taken : (payload.take length).length = length := by
      rw [List.length_take, full]
      omega
    rw [if_pos (ok.mpr fits), Session.append_of_fits fits.1 fits.2.1 fits.2.2]
    refine ⟨?_, ?_, ?_⟩
    · rw [List.length_append, taken, balanced.offset]
    · rw [Checksum.ofBytes, Checksum.feedAll_append, balanced.checksum, Checksum.ofBytes]
    · rw [List.length_append, taken, ← balanced.offset]
      exact fits.2.2
  · rw [if_neg (fun accepted => fits (ok.mp accepted)), Session.append_of_not_fits fits]
    exact balanced

/-- Every report keeps the ledger balanced. -/
theorem Balanced.hear {l : Ledger} (balanced : l.Balanced) (call : Store μ × Bytes) :
    (l.hear call).Balanced := by
  obtain ⟨store, report⟩ := call
  rw [Ledger.hear]
  cases asked : Request.ofReport? report with
  | none =>
    rw [Session.receive, asked]
    exact balanced
  | some request =>
    rw [Session.receive_eq asked]
    cases request with
    | write address length payload =>
      rw [Session.handle, Session.session_write]
      exact balanced
    | read address length =>
      rw [Session.handle, Session.session_read]
      exact balanced
    | append length payload =>
      obtain ⟨f, framed⟩ := Request.exists_frame asked
      exact balanced.append store (Request.payload_append framed)
    | reset => exact balanced_restarted l.session
    | commit fromStore header =>
      rw [Session.handle, Session.session_commit, note]
      split
      · exact balanced_restarted l.session
      · exact balanced
    | status => exact balanced
    | exit => exact ⟨balanced.offset, balanced.checksum, balanced.room⟩

theorem balanced_after (calls : List (Store μ × Bytes)) : (after calls).Balanced :=
  List.foldlRecOn calls hear balanced_new fun _ balanced call _ => balanced.hear call

theorem exitRequested_after (calls : List (Store μ × Bytes)) :
    (after calls).session.exitRequested = true ↔
      ∃ call ∈ calls, Request.ofReport? call.2 = some .exit := by
  have step : ∀ l : Ledger, (calls.foldl hear l).session.exitRequested = true ↔
      l.session.exitRequested = true ∨ ∃ call ∈ calls, Request.ofReport? call.2 = some .exit := by
    induction calls with
    | nil =>
      intro l
      simp only [List.foldl_nil, List.not_mem_nil, false_and, exists_false, or_false]
    | cons call calls ih =>
      intro l
      have first := l.session.exitRequested_receive call.1 call.2
      simp only [List.foldl_cons, ih, List.mem_cons, or_and_right, exists_or, exists_eq_left, ← or_assoc]
      exact or_congr_left first
  refine (step {}).trans ?_
  exact or_iff_right Bool.false_ne_true

/-- After any reports, on whatever stores, the offset and the checksum of a session are those of the bytes
appended since it last started anew, and it wants to leave just if it was once asked to. The next append is
accepted just if it is neither empty nor too long and there is room for it, the reply then says what was
appended so far with it, and no append touches a cell outside the script region. -/
theorem remembers_appended [LawfulMedium μ] (calls : List (Store μ × Bytes)) :
    (after calls).Balanced ∧
    ((after calls).session.exitRequested = true ↔
      ∃ call ∈ calls, Request.ofReport? call.2 = some .exit) ∧
    ∀ (store : Store μ) (report : Bytes) (length : Nat) (payload : Bytes),
      Request.ofReport? report = some (.append length payload) →
      (((after calls).session.receive store report).reply.IsOk ↔
        0 < length ∧ length ≤ Request.maxAppend ∧
          (after calls).appended.length + length ≤ maxScript) ∧
      (((after calls).session.receive store report).reply.IsOk →
        ((after calls).session.receive store report).reply =
          .appended ((after calls).appended.length + length)
            (Checksum.ofBytes ((after calls).appended ++ payload.take length))) ∧
      ∀ a, a < scriptStart ∨ reservedAddress ≤ a →
        Medium.read ((after calls).session.receive store report).store.medium a =
          Medium.read store.medium a := by
  have balanced := balanced_after calls
  refine ⟨balanced, exitRequested_after calls, ?_⟩
  intro store report length payload asked
  generalize after calls = l at balanced
  rw [Session.receive_eq asked, Session.handle]
  have accepted := l.session.isOk_append_iff store length payload
  refine ⟨?_, ?_, fun a outside => l.session.read_append store length payload outside⟩
  · rw [← balanced.offset]
    exact accepted
  · intro ok
    obtain ⟨positive, short, fits⟩ := accepted.mp ok
    rw [Session.append_of_fits positive short fits, balanced.offset, balanced.checksum,
      Checksum.ofBytes, Checksum.ofBytes, Checksum.feedAll_append]

/-- Two bytes are appended, the host asks to leave, and a commit is refused for its length, each on a store of
its own. -/
def threeCalls : List (Store Memory × Bytes) :=
  [(.ofScript [0x00], [0x03, 0x02, 0x00, 0x06, 0x04]), (.mount {}, [0x07]), (.mount {}, [0x05])]

theorem remembers_appended_threeCalls :
    (after threeCalls).appended = [0x06, 0x04] ∧
    (after threeCalls).Balanced ∧ (after threeCalls).session.exitRequested = true ∧
    Request.ofReport? [0x03, 0x01] = some (.append 1 (.replicate 29 0x00)) ∧
    ((after threeCalls).session.receive (Store.ofScript []) [0x03, 0x01]).reply =
      .appended 3 (Checksum.ofBytes [0x06, 0x04, 0x00]) ∧
    ∀ a, a < scriptStart ∨ reservedAddress ≤ a →
      Medium.read ((after threeCalls).session.receive (Store.ofScript []) [0x03, 0x01]).store.medium a =
        Medium.read (Store.ofScript []).medium a := by
  have appended : (after threeCalls).appended = [0x06, 0x04] := by decide +kernel
  have asked : Request.ofReport? [0x03, 0x01] = some (.append 1 (.replicate 29 0x00)) := by decide +kernel
  obtain ⟨balanced, leaves, append⟩ := remembers_appended threeCalls
  obtain ⟨accepted, reply, outside⟩ := append (.ofScript []) [0x03, 0x01] 1 (.replicate 29 0x00) asked
  rw [appended] at accepted reply
  exact ⟨appended, balanced, leaves.mpr ⟨(.mount {}, [0x07]), List.mem_cons_of_mem _ List.mem_cons_self, rfl⟩, asked,
    reply (accepted.mpr (by decide)), outside⟩

end Ledger

end Autotype
