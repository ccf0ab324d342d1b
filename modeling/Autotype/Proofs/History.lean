import Autotype.Proofs.Contact

/-!
# What the requests so far amount to

A history is what an observer who sees only requests and replies can say of a session and a store: which
bytes were appended since the session started anew, and which cells were written by their address and
not given a byte in another way since. Together with the header that the store has, this accounts for the
first cells of the store (`History.Matches`), whatever the requests were.
-/

namespace Autotype

/-- What requests and their replies amount to. -/
structure History where
  /-- The bytes appended since the session started anew. -/
  appended : Bytes := []
  /-- What was written to a cell by its address, if it was not given a byte in another way since. -/
  overwritten : Nat → Option UInt8 := fun _ => none

/-- The stored form of a header whose length was cleared differs in the two bytes of the length. -/
theorem Header.encode_cleared (header : Header) {contents : Nat → UInt8}
    (cells : ∀ a, (inside : a < headerSize) → contents a = header.encode[a]) {a : Nat}
    (inside : a < headerSize) :
    overlaid contents lengthOffset (Word.bytes 0) a =
      ({ header with length := 0 } : Header).encode[a] := by
  by_cases before : a < 4
  · rw [overlaid_of_lt (show a < lengthOffset from before), cells a inside]
    match a, before with
    | 0, _ | 1, _ | 2, _ | 3, _ => rfl
  · by_cases behind : 6 ≤ a
    · rw [overlaid_of_ge (show lengthOffset + (Word.bytes 0).length ≤ a from behind), cells a inside]
      have last : a = 6 ∨ a = 7 := by
        have numbers := geometry
        omega
      rcases last with rfl | rfl <;> rfl
    · have middle : a = 4 ∨ a = 5 := by omega
      rcases middle with rfl | rfl <;> rfl

namespace History

/-- Takes note of a request, if a report contained one, and of the reply to it. -/
def note (h : History) : Option Request → Reply → History
  | some (.write address length payload), .written _ =>
    { h with overwritten := overlaid h.overwritten address ((payload.take length).map some) }
  | some (.append length payload), .appended _ _ =>
    { appended := h.appended ++ payload.take length
      overwritten :=
        overlaid h.overwritten (scriptStart + h.appended.length) (.replicate length none) }
  | some .reset, .status .ok => { h with appended := [] }
  | some (.commit _ _), .status .ok =>
    { overwritten := overlaid h.overwritten 0 (.replicate headerSize none) }
  | some (.commit _ _), .status (.refused .checksumMismatch) =>
    { overwritten := overlaid h.overwritten Header.lengthOffset (.replicate 2 none) }
  | _, _ => h

theorem note_refused (h : History) (asked : Option Request) {why : Refusal}
    (other : why ≠ .checksumMismatch) : h.note asked (.refused why) = h := by
  unfold note Reply.refused
  split
  · cases ‹Reply.status _ = _›
  · cases ‹Reply.status _ = _›
  · cases ‹Reply.status _ = _›
  · cases ‹Reply.status _ = _›
  · next same =>
    cases same
    exact absurd rfl other
  · rfl

/-- The bytes that a header and the appended bytes give to the cells, one after the other. -/
def account (h : History) (header : Header) : Nat → UInt8 :=
  overlaid (fun _ => 0) 0 (header.encode.toList ++ h.appended)

theorem account_header (h : History) (header : Header) {a : Nat} (inside : a < headerSize) :
    h.account header a = header.encode[a] := by
  have long : header.encode.toList.length = headerSize := Vector.length_toList
  rw [account, overlaid_zero (by rw [List.length_append]; omega),
    List.getElem_append_left (by omega), Vector.getElem_toList]

theorem account_appended (h : History) (header : Header) {i : Nat} (inside : i < h.appended.length) :
    h.account header (scriptStart + i) = h.appended[i] := by
  have long : header.encode.toList.length = scriptStart := Vector.length_toList
  rw [account, ← overlaid_overlaid, long, Nat.zero_add, overlaid_add inside]

/-- Whether a session and a store are as a history says. -/
structure Matches {μ : Type} [Medium μ] (h : History) (s : Session) (store : Store μ) : Prop where
  size : store.size = storeSize
  offset : s.offset = h.appended.length
  checksum : s.checksum = Checksum.ofBytes h.appended
  room : h.appended.length ≤ maxScript
  /-- The cells hold the header and the appended bytes, except where they were overwritten. -/
  cells : ∀ a < headerSize + h.appended.length,
    store.readByte a = (h.overwritten a).getD (h.account store.header a)

namespace Matches

variable {μ : Type} [Medium μ] {h : History} {s : Session} {store : Store μ}

theorem headerCell (known : h.Matches s store) {a : Nat} (inside : a < headerSize) :
    store.readByte a = (h.overwritten a).getD store.header.encode[a] := by
  rw [known.cells a (by omega), account_header h store.header inside]

theorem scriptCell (known : h.Matches s store) {i : Nat} (inside : i < h.appended.length) :
    store.readByte (scriptStart + i) = (h.overwritten (scriptStart + i)).getD h.appended[i] := by
  have numbers := geometry
  rw [known.cells _ (by omega), account_appended h store.header inside]

/-- A session that has heard nothing yet, on a store that was just opened. -/
theorem mount {m : μ} (size : Medium.size m = storeSize) : Matches {} {} (Store.mount m) where
  size := size
  offset := rfl
  checksum := rfl
  room := Nat.zero_le _
  cells a inside := by
    have opened : (Store.mount m).storedHeader = (Store.mount m).header := rfl
    show (Store.mount m).readByte a = account {} (Store.mount m).header a
    rw [account_header _ _ inside, Store.storedHeader_eq_iff.mp opened a inside]

theorem restarted (known : h.Matches s store) :
    Matches { h with appended := [] } s.restarted store where
  size := known.size
  offset := rfl
  checksum := rfl
  room := Nat.zero_le _
  cells a inside := by
    rw [known.headerCell inside, account_header _ _ inside]

variable [LawfulMedium μ]

theorem flush (known : h.Matches s store) : h.Matches s store.flush where
  size := store.size_flush.trans known.size
  offset := known.offset
  checksum := known.checksum
  room := known.room
  cells a inside := by rw [store.readByte_flush, store.header_flush, known.cells a inside]

theorem wrote (known : h.Matches s store) {address length : Nat} {data : Bytes}
    (full : data.length = length) (fits : address + length ≤ storeSize) :
    Matches { h with overwritten := overlaid h.overwritten address (data.map some) } s
      (store.writeBlock address data) where
  size := (store.size_writeBlock address data).trans known.size
  offset := known.offset
  checksum := known.checksum
  room := known.room
  cells a inside := by
    rw [Store.header_writeBlock, Store.readByte_writeBlock_eq (by rw [known.size, full]; exact fits)]
    refine Eq.trans ?_ (getD_overlaid_some (h.account store.header) data).symm
    exact overlaid_congr fun _ => known.cells a inside

theorem appended (known : h.Matches s store) {length : Nat} {data : Bytes}
    (full : data.length = length) (fits : s.offset + length ≤ maxScript) :
    Matches
      { appended := h.appended ++ data
        overwritten := overlaid h.overwritten (scriptStart + h.appended.length)
          (.replicate length none) }
      { s with offset := s.offset + length, checksum := Checksum.feedAll s.checksum data }
      (store.writeBlock (scriptStart + s.offset) data) where
  size := (store.size_writeBlock _ data).trans known.size
  offset := by rw [known.offset, List.length_append, full]
  checksum := by rw [known.checksum, Checksum.ofBytes, Checksum.ofBytes, Checksum.feedAll_append]
  room := by rwa [List.length_append, full, ← known.offset]
  cells a inside := by
    have numbers := geometry
    have offset := known.offset
    have long : (store.header.encode.toList ++ h.appended).length =
        scriptStart + h.appended.length := by
      rw [List.length_append, Vector.length_toList]
    have longer : account { h with appended := h.appended ++ data } store.header =
        overlaid (h.account store.header) (scriptStart + h.appended.length) data := by
      rw [account, account, ← List.append_assoc, ← overlaid_overlaid, Nat.zero_add, long]
    rw [List.length_append] at inside
    rw [Store.header_writeBlock, Store.readByte_writeBlock_eq (by rw [known.size]; omega), offset,
      ← full]
    refine Eq.trans ?_ (longer ▸ getD_overlaid_none (h.account store.header) data).symm
    -- only the cells of the chunk itself need not be accounted for before
    refine overlaid_congr fun outside => known.cells a ?_
    omega

theorem committed (known : h.Matches s store) (header : Header) :
    Matches { overwritten := overlaid h.overwritten 0 (.replicate headerSize none) } s.restarted
      (store.commit header) where
  size := (store.size_commit header).trans known.size
  offset := rfl
  checksum := rfl
  room := Nat.zero_le _
  cells a inside := by
    have numbers := geometry
    have long : header.encode.toList.length = headerSize := Vector.length_toList
    have cell : a < headerSize := inside
    have fresh : overlaid h.overwritten 0 (.replicate headerSize none) a = none := by
      rw [overlaid_zero (by rwa [List.length_replicate]), List.getElem_replicate]
    rw [store.header_commit, account_header _ _ cell]
    show (store.commit header).readByte a =
      (overlaid h.overwritten 0 (.replicate headerSize none) a).getD header.encode[a]
    rw [fresh, Option.getD_none, Store.readByte_commit (by rw [known.size]; omega),
      overlaid_zero (by omega), Vector.getElem_toList]

theorem invalidated (known : h.Matches s store) :
    Matches { overwritten := overlaid h.overwritten Header.lengthOffset (.replicate 2 none) }
      s.restarted store.invalidate where
  size := store.size_invalidate.trans known.size
  offset := rfl
  checksum := rfl
  room := Nat.zero_le _
  cells a inside := by
    have numbers := geometry
    have cell : a < headerSize := inside
    have cleared := store.header.encode_cleared
      (fun b (before : b < headerSize) => h.account_header store.header before) cell
    rw [account_header _ _ cell, Store.readByte_invalidate (by rw [known.size]; omega)]
    show _ = (overlaid h.overwritten Header.lengthOffset (.replicate 2 none) a).getD
      ({ store.header with length := 0 } : Header).encode[a]
    rw [← cleared]
    refine Eq.trans ?_ (getD_overlaid_none (h.account store.header) (Word.bytes 0)).symm
    exact overlaid_congr fun _ => known.cells a (by omega)

/-- Whatever a report asks for, its note keeps the history true. -/
theorem receive (known : h.Matches s store) (report : Bytes) :
    (h.note (Request.ofReport? report) (s.receive store report).reply).Matches
      (s.receive store report).session (s.receive store report).store := by
  have effect := Session.effect_receive s store report
  generalize Request.ofReport? report = asked at effect ⊢
  generalize s.receive store report = outcome at effect ⊢
  cases effect with
  | refused why other =>
    rw [note_refused h asked other]
    exact known
  | wrote full fits => exact known.wrote full fits
  | read => exact known
  | appended full fits => exact known.appended full fits
  | reset => exact known.restarted
  | committed => exact known.committed _
  | mismatched => exact known.invalidated
  | told => exact known
  | left => exact ⟨known.size, known.offset, known.checksum, known.room, known.cells⟩

end Matches

end History

/-! ## Runs -/

/-- A session on a store, with the history of what it was told. -/
structure Conversation (μ : Type) where
  session : Session := {}
  store : Store μ
  history : History := {}

namespace Conversation

variable {μ : Type} [Medium μ]

/-- What comes of a report. -/
def answer (c : Conversation μ) (report : Bytes) : Outcome μ :=
  c.session.receive c.store report

/-- Takes in a report. -/
def hear (c : Conversation μ) (report : Bytes) : Conversation μ :=
  let outcome := c.session.receive c.store report
  { session := outcome.session
    store := outcome.store
    history := c.history.note (Request.ofReport? report) outcome.reply }

/-- A new session on a store that was just opened, after these reports. -/
def after (m : μ) (reports : List Bytes) : Conversation μ :=
  reports.foldl hear { store := .mount m }

theorem matches_after [LawfulMedium μ] {m : μ} (size : Medium.size m = storeSize)
    (reports : List Bytes) :
    (after m reports).history.Matches (after m reports).session (after m reports).store := by
  have step : ∀ (c : Conversation μ) (rs : List Bytes), c.history.Matches c.session c.store →
      (rs.foldl hear c).history.Matches (rs.foldl hear c).session (rs.foldl hear c).store := by
    intro c rs known
    induction rs generalizing c with
    | nil => exact known
    | cons r rs ih => exact ih (c.hear r) (known.receive r)
  exact step _ reports (.mount size)

end Conversation

namespace Programmer

variable {μ : Type} [Medium μ]

/-- A programmer after these reports. -/
def setReports (p : Programmer μ) (reports : List Bytes) : Programmer μ :=
  reports.foldl setReport p

/-- The history of the programmer's session after these reports. -/
def history (p : Programmer μ) (h : History) : List Bytes → History
  | [] => h
  | report :: reports =>
    (p.setReport report).history
      (h.note (Request.ofReport? report) (p.session.receive p.store report).reply) reports

theorem matches_setReports [LawfulMedium μ] {p : Programmer μ} {h : History}
    (known : h.Matches p.session p.store) (reports : List Bytes) :
    (p.history h reports).Matches (p.setReports reports).session (p.setReports reports).store := by
  induction reports generalizing p h with
  | nil => exact known
  | cons report reports ih =>
    refine ih ?_
    rw [session_setReport]
    rcases p.store_setReport report with same | same
    · rw [same]
      exact known.receive report
    · rw [same]
      exact (known.receive report).flush

end Programmer

end Autotype
