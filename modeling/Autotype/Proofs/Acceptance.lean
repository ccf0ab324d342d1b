import Autotype.Proofs.Effect

/-!
# Which requests are accepted

A request is accepted if the reply to it begins with success. A span of addresses is accepted just if it
lies in the store and is neither empty nor too long for a report, and data is appended just if there is
room for it behind what was appended before. What an accepted request does is then one equation.
-/

namespace Autotype

namespace Reply

/-- Whether a reply says that the request was carried out. -/
def IsOk (r : Reply) : Prop :=
  r.leadingStatus? = some .ok

instance (r : Reply) : Decidable r.IsOk :=
  inferInstanceAs (Decidable (r.leadingStatus? = some .ok))

theorem isOk_of_encode {r : Reply} {rest : Bytes} (encoded : r.encode = Status.code .ok :: rest) :
    r.IsOk := by
  rw [IsOk, leadingStatus?, encoded]
  exact Status.ofCode?_code .ok

theorem isOk_ok : ok.IsOk :=
  isOk_of_encode rfl

theorem isOk_written (length : Nat) : (written length).IsOk :=
  isOk_of_encode rfl

theorem isOk_contents (bytes : Bytes) : (contents bytes).IsOk :=
  isOk_of_encode rfl

theorem isOk_appended (offset : Nat) (checksum : UInt16) : (appended offset checksum).IsOk :=
  isOk_of_encode rfl

theorem not_isOk_refused (why : Refusal) : ¬(refused why).IsOk := by
  intro ok
  have status : (refused why).leadingStatus? = some (.refused why) := Status.ofCode?_code (.refused why)
  rw [IsOk, status] at ok
  cases ok

end Reply

namespace Session

variable {μ : Type} [Medium μ] {s : Session} {store : Store μ} {report : Bytes}

theorem receive_eq {request : Request} (asked : Request.ofReport? report = some request) :
    s.receive store report = s.handle store request := by
  rw [receive, asked]

/-! ## Spans of addresses -/

theorem spanFault?_eq_none_iff {address length most : Nat} :
    spanFault? address length most = none ↔
      address < storeSize ∧ 0 < length ∧ length ≤ most ∧ address + length ≤ storeSize := by
  rcases spanFault?_cases address length most with ⟨why, fault, -⟩ | ⟨fault, positive, short, fits⟩
  · rw [fault]
    refine iff_of_false (Option.some_ne_none why) ?_
    rintro ⟨inside, positive, short, fits⟩
    rw [spanFault?, if_neg (by omega), if_neg (by omega)] at fault
    cases fault
  · exact iff_of_true fault ⟨by omega, positive, short, fits⟩

theorem isOk_write_iff (s : Session) (store : Store μ) (address length : Nat) (payload : Bytes) :
    (s.write store address length payload).reply.IsOk ↔
      address < storeSize ∧ 0 < length ∧ length ≤ Request.maxWrite ∧ address + length ≤ storeSize := by
  rw [← spanFault?_eq_none_iff, write]
  cases spanFault? address length Request.maxWrite with
  | some why => exact iff_of_false (Reply.not_isOk_refused why) (Option.some_ne_none why)
  | none => exact iff_of_true (Reply.isOk_written length) rfl

theorem isOk_read_iff (s : Session) (store : Store μ) (address length : Nat) :
    (s.read store address length).reply.IsOk ↔
      address < storeSize ∧ 0 < length ∧ length ≤ Request.maxRead ∧ address + length ≤ storeSize := by
  rw [← spanFault?_eq_none_iff, read]
  cases spanFault? address length Request.maxRead with
  | some why => exact iff_of_false (Reply.not_isOk_refused why) (Option.some_ne_none why)
  | none => exact iff_of_true (Reply.isOk_contents _) rfl

theorem write_of_fits {address length : Nat} {payload : Bytes} (positive : 0 < length)
    (short : length ≤ Request.maxWrite) (fits : address + length ≤ storeSize) :
    s.write store address length payload =
      ⟨.written length, s, store.writeBlock address (payload.take length)⟩ := by
  have fault : spanFault? address length Request.maxWrite = none :=
    spanFault?_eq_none_iff.mpr ⟨by omega, positive, short, fits⟩
  rw [write, fault]

theorem read_of_isOk {address length : Nat} (ok : (s.read store address length).reply.IsOk) :
    s.read store address length = ⟨.contents (store.readBlock address length), s, store⟩ := by
  rw [isOk_read_iff, ← spanFault?_eq_none_iff] at ok
  rw [read, ok]

/-! ## Data and commits -/

theorem append_of_fits {length : Nat} {payload : Bytes} (positive : 0 < length)
    (short : length ≤ Request.maxAppend) (fits : s.offset + length ≤ maxScript) :
    s.append store length payload =
      ⟨.appended (s.offset + length) (Checksum.feedAll s.checksum (payload.take length)),
        { s with
          offset := s.offset + length
          checksum := Checksum.feedAll s.checksum (payload.take length) },
        store.writeBlock (scriptStart + s.offset) (payload.take length)⟩ :=
  if_neg (by omega)

theorem append_of_not_fits {length : Nat} {payload : Bytes}
    (wrong : ¬(0 < length ∧ length ≤ Request.maxAppend ∧ s.offset + length ≤ maxScript)) :
    s.append store length payload = ⟨.refused .invalidLength, s, store⟩ :=
  if_pos (by omega)

theorem isOk_append_iff (s : Session) (store : Store μ) (length : Nat) (payload : Bytes) :
    (s.append store length payload).reply.IsOk ↔
      0 < length ∧ length ≤ Request.maxAppend ∧ s.offset + length ≤ maxScript := by
  by_cases fits : 0 < length ∧ length ≤ Request.maxAppend ∧ s.offset + length ≤ maxScript
  · rw [append_of_fits fits.1 fits.2.1 fits.2.2]
    exact iff_of_true (Reply.isOk_appended _ _) fits
  · rw [append_of_not_fits fits]
    exact iff_of_false (Reply.not_isOk_refused _) fits

/-- A commit with a possible length is decided by its checksum. -/
theorem commit_of_fits {fromStore : Bool} {header : Header} (positive : 0 < header.length.toNat)
    (fits : header.length.toNat ≤ maxScript) :
    s.commit store fromStore header =
      if (if fromStore then store.scriptChecksum header.length.toNat else s.checksum) = header.checksum then
        ⟨.ok, s.restarted, store.commit header⟩
      else ⟨.refused .checksumMismatch, s.restarted, store.invalidate⟩ := by
  have possible : ¬(header.length = 0 ∨ maxScript < header.length.toNat) := by
    rintro (zero | long)
    · rw [zero] at positive
      exact Nat.lt_irrefl 0 positive
    · exact Nat.not_lt.mpr fits long
  rw [commit, if_neg possible]

theorem commit_of_agrees {fromStore : Bool} {header : Header} (positive : 0 < header.length.toNat)
    (fits : header.length.toNat ≤ maxScript)
    (agrees : (if fromStore then store.scriptChecksum header.length.toNat else s.checksum) =
      header.checksum) :
    s.commit store fromStore header = ⟨.ok, s.restarted, store.commit header⟩ := by
  rw [commit_of_fits positive fits, if_pos agrees]

end Session

end Autotype
