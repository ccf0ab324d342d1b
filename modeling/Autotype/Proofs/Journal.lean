import Autotype.Proofs.Acceptance
import Autotype.Proofs.History
import Autotype.Store.Memory

/-!
# The store as plain cells

For the host the store is nothing but cells, whatever else there is to a header or a script. A journal lists
what requests put to them, as far as replies tell of it: the spans of accepted writes and appends, the header
of an accepted commit, and the cleared length of a commit with a wrong checksum. A cell holds what the journal
put there last, or what it held at first (`Conversation.reads_latest`).
-/

namespace Autotype

/-- Bytes that are put to the cells from an address on. -/
structure Put where
  start : Nat
  bytes : Bytes

namespace Put

/-- What is put to a cell, if it is one of those cells. -/
def at? (put : Put) (a : Nat) : Option UInt8 :=
  if put.start ≤ a then put.bytes[a - put.start]? else none

/-- What a request puts to the cells, if a report contained one, according to the reply to it. So many bytes
were appended before. -/
def of? (offset : Nat) : Option Request → Reply → Option Put
  | some (.write address length payload), .written _ => some ⟨address, payload.take length⟩
  | some (.append length payload), .appended _ _ => some ⟨scriptStart + offset, payload.take length⟩
  | some (.commit _ header), .status .ok => some ⟨0, header.encode.toList⟩
  | some (.commit _ _), .status (.refused .checksumMismatch) => some ⟨Header.lengthOffset, [0x00, 0x00]⟩
  | _, _ => none

theorem of?_refused (offset : Nat) (asked : Option Request) {why : Refusal}
    (other : why ≠ .checksumMismatch) : of? offset asked (.refused why) = none := by
  unfold of? Reply.refused
  split
  · cases ‹Reply.status _ = _›
  · cases ‹Reply.status _ = _›
  · cases ‹Reply.status _ = _›
  · next same =>
    cases same
    exact absurd rfl other
  · rfl

/-- What was put to a cell last, if anything was; the latest comes first in the list. -/
def latest? (puts : List Put) (a : Nat) : Option UInt8 :=
  puts.findSome? (·.at? a)

/-- The contents of the cells after what was put to them, the latest first. -/
def contents (initial : Nat → UInt8) (puts : List Put) (a : Nat) : UInt8 :=
  (latest? puts a).getD (initial a)

theorem contents_cons (initial : Nat → UInt8) (put : Put) (puts : List Put) :
    contents initial (put :: puts) = overlaid (contents initial puts) put.start put.bytes := by
  funext a
  rw [contents, latest?, List.findSome?_cons, at?, overlaid]
  by_cases behind : put.start ≤ a
  · rw [if_pos behind, if_pos behind, List.getD_eq_getElem?_getD]
    cases put.bytes[a - put.start]? <;> rfl
  · rw [if_neg behind, if_neg behind]
    rfl

end Put

namespace Session

variable {μ : Type} [Medium μ] [LawfulMedium μ]

/-- A request puts to the cells what the journal says, and without that it changes nothing. -/
theorem receive_puts (s : Session) {store : Store μ} (size : store.size = storeSize) (report : Bytes) :
    (Put.of? s.offset (Request.ofReport? report) (s.receive store report).reply = none ∧
      (s.receive store report).store = store) ∨
    ∃ put, Put.of? s.offset (Request.ofReport? report) (s.receive store report).reply = some put ∧
      (s.receive store report).store.size = store.size ∧
      (s.receive store report).store.readByte = overlaid store.readByte put.start put.bytes := by
  have effect := effect_receive s store report
  have numbers := geometry
  have header : headerSize ≤ store.size := by omega
  generalize Request.ofReport? report = asked at effect ⊢
  generalize s.receive store report = outcome at effect ⊢
  cases effect with
  | refused why other => exact .inl ⟨Put.of?_refused s.offset asked other, rfl⟩
  | wrote full fits =>
    refine .inr ⟨_, rfl, store.size_writeBlock _ _, Store.readByte_writeBlock_eq ?_⟩
    rw [full, size]
    exact fits
  | appended full fits =>
    refine .inr ⟨_, rfl, store.size_writeBlock _ _, Store.readByte_writeBlock_eq ?_⟩
    rw [full, size]
    omega
  | committed => exact .inr ⟨_, rfl, store.size_commit _, Store.readByte_commit header _⟩
  | mismatched => exact .inr ⟨_, rfl, store.size_invalidate, Store.readByte_invalidate header⟩
  | read | reset | told | left => exact .inl ⟨rfl, rfl⟩

end Session

namespace Conversation

variable {μ : Type} [Medium μ]

/-- What these reports put to the cells, the latest first. -/
def puts (c : Conversation μ) : List Bytes → List Put
  | [] => []
  | report :: reports =>
    (c.hear report).puts reports ++
      (Put.of? c.session.offset (Request.ofReport? report) (c.answer report).reply).toList

/-- What reports to a new session on this medium put to the cells, the latest first. -/
def journal (m : μ) (reports : List Bytes) : List Put :=
  puts { store := .mount m } reports

section

variable [LawfulMedium μ]

theorem contents_hears {c : Conversation μ} {initial : Nat → UInt8} {before : List Put}
    (size : c.store.size = storeSize) (known : c.store.readByte = Put.contents initial before)
    (reports : List Bytes) :
    (reports.foldl hear c).store.size = storeSize ∧
    (reports.foldl hear c).store.readByte = Put.contents initial (c.puts reports ++ before) := by
  induction reports generalizing c before with
  | nil => exact ⟨size, known⟩
  | cons report reports ih =>
    rw [puts, List.append_assoc]
    have received := c.session.receive_puts size report
    rcases received with ⟨nothing, same⟩ | ⟨put, found, sized, cells⟩
    · have store : (c.hear report).store = c.store := same
      rw [answer, nothing]
      exact ih (by rw [store, size]) (by rw [store, known]; rfl)
    · rw [answer, found]
      refine ih (sized.trans size) ?_
      rw [Option.toList_some, List.singleton_append, Put.contents_cons, ← known]
      exact cells

theorem contents_after {m : μ} (size : Medium.size m = storeSize) (reports : List Bytes) :
    (after m reports).store.size = storeSize ∧
    (after m reports).store.readByte = Put.contents (Store.mount m).readByte (journal m reports) := by
  have new : Put.contents (Store.mount m).readByte [] = (Store.mount m).readByte := rfl
  have heard := contents_hears (c := { store := .mount m }) size new.symm reports
  rwa [List.append_nil] at heard

/-- A cell holds what was put to it last, or what the medium held there at first. -/
theorem readByte_after {m : μ} (size : Medium.size m = storeSize) (reports : List Bytes) {a : Nat}
    (inside : a < storeSize) :
    (after m reports).store.readByte a = (Put.latest? (journal m reports) a).getD (Medium.read m a) := by
  have initial : (Store.mount m).readByte a = Medium.read m a := by
    have cell : a < (Store.mount m).size := Nat.lt_of_lt_of_eq inside size.symm
    exact Store.readByte_of_inside cell
  rw [(contents_after size reports).2, Put.contents, initial]

/-- After any reports, a read is accepted just if its span lies in the store and is neither empty nor too long,
and the reply has the byte that was put to each cell last, or the one that was there at first. A write is
accepted on the same terms, and a report that puts nothing to the cells leaves the store as it was. -/
theorem reads_latest {m : μ} (size : Medium.size m = storeSize) (reports : List Bytes) :
    (∀ (report : Bytes) (address length : Nat),
      Request.ofReport? report = some (.read address length) →
      (((after m reports).answer report).reply.IsOk ↔
        address < storeSize ∧ 0 < length ∧ length ≤ Request.maxRead ∧ address + length ≤ storeSize) ∧
      (((after m reports).answer report).reply.IsOk →
        ((after m reports).answer report).reply =
          .contents ((List.range length).map fun i =>
            (Put.latest? (journal m reports) (address + i)).getD (Medium.read m (address + i))))) ∧
    (∀ (report : Bytes) (address length : Nat) (payload : Bytes),
      Request.ofReport? report = some (.write address length payload) →
      (((after m reports).answer report).reply.IsOk ↔
        address < storeSize ∧ 0 < length ∧ length ≤ Request.maxWrite ∧
          address + length ≤ storeSize)) ∧
    ∀ report : Bytes,
      Put.of? (after m reports).session.offset (Request.ofReport? report)
        ((after m reports).answer report).reply = none →
      ((after m reports).answer report).store = (after m reports).store := by
  have size' := (contents_after size reports).1
  have cells : ∀ a < storeSize, (after m reports).store.readByte a =
      (Put.latest? (journal m reports) a).getD (Medium.read m a) :=
    fun _ inside => readByte_after size reports inside
  generalize after m reports = c at size' cells
  refine ⟨?_, ?_, ?_⟩
  · intro report address length asked
    rw [answer, Session.receive_eq asked, Session.handle]
    refine ⟨c.session.isOk_read_iff c.store address length, ?_⟩
    intro ok
    obtain ⟨-, -, -, fits⟩ := (c.session.isOk_read_iff c.store address length).mp ok
    rw [Session.read_of_isOk ok]
    refine congrArg Reply.contents (List.map_congr_left fun i inside => cells _ ?_)
    have before := List.mem_range.mp inside
    omega
  · intro report address length payload asked
    rw [answer, Session.receive_eq asked, Session.handle]
    exact c.session.isOk_write_iff c.store address length payload
  · intro report nothing
    rcases c.session.receive_puts size' report with ⟨-, same⟩ | ⟨put, found, -⟩
    · exact same
    · exact absurd (nothing.symm.trans found) (Option.some_ne_none put).symm

end

/-- A write over the end of the header, an append, and a commit with a wrong checksum, which clears two
cells of the former. -/
def threeReports : List Bytes :=
  [[0x01, 0x03, 0x00, 0x07, 0x00, 0x0A, 0x0B, 0x0C, 0x0D, 0x0E, 0x0F, 0x10], [0x03, 0x01, 0x00, 0x2A],
    [0x05, 0x00, 0x1A, 0x00, 0x00, 0x00, 0x01, 0x00, 0x00, 0x00]]

theorem reads_latest_threeReports :
    Medium.size ({} : Memory) = storeSize ∧
    Request.ofReport? [0x02, 0x02, 0x00, 0x09] = some (.read 2 9) ∧
    ((after ({} : Memory) threeReports).answer [0x02, 0x02, 0x00, 0x09]).reply =
      .contents [0xFF, 0x0A, 0x00, 0x00, 0x0D, 0x0E, 0x2A, 0x10, 0xFF] := by
  have size : Medium.size ({} : Memory) = storeSize := rfl
  have asked : Request.ofReport? [0x02, 0x02, 0x00, 0x09] = some (.read 2 9) := by decide +kernel
  obtain ⟨accepted, reply⟩ := (reads_latest size threeReports).1 _ 2 9 asked
  refine ⟨size, asked, (reply (accepted.mpr (by decide))).trans ?_⟩
  decide +kernel

end Conversation

end Autotype
