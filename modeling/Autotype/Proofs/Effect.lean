import Autotype.Programming.Programmer

/-!
# What a request can do

A request is refused and changes nothing, or it is carried out in one of eight ways. `Session.Effect`
lists them with what is known of the request in each, so that whoever asks what a session or a store is
like after a request has these cases to look at and no others.
-/

namespace Autotype

namespace Request

/-! ## Requests and their reports -/

theorem getElem_frame (report : Bytes) {i : Nat} (inside : i < reportSize) :
    (frame report)[i] = report.getD i 0 := by
  simp [frame, List.getD_eq_getElem?_getD]

theorem frame_zero (command : UInt8) (rest : Bytes) : (frame (command :: rest))[0] = command :=
  getElem_frame _ (by decide)

theorem frame_take (report : Bytes) : frame (report.take reportSize) = frame report := by
  apply Vector.ext
  intro i inside
  simp only [getElem_frame, List.getD_eq_getElem?_getD, List.getElem?_take, if_pos inside]

theorem ofReport?_eq {report : Bytes} (some : report ≠ []) :
    ofReport? report = ofFrame? (frame report) := by
  rw [ofReport?]
  exact some

/-- What goes beyond a whole report does not count. -/
theorem ofReport?_take (report : Bytes) :
    ofReport? (report.take reportSize) = ofReport? report := by
  by_cases empty : report = []
  · rw [empty, List.take_nil]
  · have some : report.take reportSize ≠ [] := by
      rw [ne_eq, List.take_eq_nil_iff, not_or]
      exact ⟨Nat.noConfusion, empty⟩
    rw [ofReport?_eq empty, ofReport?_eq some, frame_take]

/-- A request always comes from a whole report. -/
theorem exists_frame {report : Bytes} {request : Request} (asked : ofReport? report = some request) :
    ∃ f, ofFrame? f = some request := by
  by_cases empty : report = []
  · rw [empty] at asked
    cases asked
  · rw [ofReport?_eq empty] at asked
    exact ⟨_, asked⟩

theorem ofFrame?_write {f : Vector UInt8 reportSize} (command : f[0] = writeCommand) :
    ofFrame? f = some (.write (Word.ofBytes f[1] f[2]).toNat (Word.ofBytes f[3] f[4]).toNat
      (f.toList.drop 5)) := by
  unfold ofFrame?
  rw [command]
  rfl

theorem ofFrame?_append {f : Vector UInt8 reportSize} (command : f[0] = appendCommand) :
    ofFrame? f = some (.append (Word.ofBytes f[1] f[2]).toNat (f.toList.drop 3)) := by
  unfold ofFrame?
  rw [command]
  rfl

theorem ofFrame?_reset {f : Vector UInt8 reportSize} (command : f[0] = resetCommand) :
    ofFrame? f = some .reset := by
  unfold ofFrame?
  rw [command]
  rfl

theorem ofFrame?_commit {f : Vector UInt8 reportSize} (command : f[0] = commitCommand) :
    ofFrame? f = some (.commit (f[1] &&& fromStoreOption != 0)
      { version := f[2]
        flags := f[3]
        delay := Word.ofBytes f[4] f[5]
        length := Word.ofBytes f[6] f[7]
        checksum := Word.ofBytes f[8] f[9] }) := by
  unfold ofFrame?
  rw [command]
  rfl

theorem payload_write {f : Vector UInt8 reportSize} {address length : Nat} {payload : Bytes}
    (asked : ofFrame? f = some (.write address length payload)) : payload.length = maxWrite := by
  unfold ofFrame? at asked
  split at asked <;> cases asked
  rw [List.length_drop, Vector.length_toList]
  rfl

theorem payload_append {f : Vector UInt8 reportSize} {length : Nat} {payload : Bytes}
    (asked : ofFrame? f = some (.append length payload)) : payload.length = maxAppend := by
  unfold ofFrame? at asked
  split at asked <;> cases asked
  rw [List.length_drop, Vector.length_toList]
  rfl

end Request

namespace Session

variable {μ : Type} [Medium μ]

/-- What can become of a request, if any, of a session on a store. -/
inductive Effect (s : Session) (store : Store μ) : Option Request → Outcome μ → Prop
  | refused {asked : Option Request} (why : Refusal) (other : why ≠ .checksumMismatch) :
    Effect s store asked ⟨.refused why, s, store⟩
  | wrote {address length : Nat} {payload : Bytes} (full : (payload.take length).length = length)
      (fits : address + length ≤ storeSize) :
    Effect s store (some (.write address length payload))
      ⟨.written length, s, store.writeBlock address (payload.take length)⟩
  | read {address length : Nat} :
    Effect s store (some (.read address length))
      ⟨.contents (store.readBlock address length), s, store⟩
  | appended {length : Nat} {payload : Bytes} (full : (payload.take length).length = length)
      (fits : s.offset + length ≤ maxScript) :
    Effect s store (some (.append length payload))
      ⟨.appended (s.offset + length) (Checksum.feedAll s.checksum (payload.take length)),
        { s with
          offset := s.offset + length
          checksum := Checksum.feedAll s.checksum (payload.take length) },
        store.writeBlock (scriptStart + s.offset) (payload.take length)⟩
  | reset : Effect s store (some .reset) ⟨.ok, s.restarted, store⟩
  | committed {fromStore : Bool} {header : Header} (positive : 0 < header.length.toNat)
      (fits : header.length.toNat ≤ maxScript)
      (agrees : (if fromStore then store.scriptChecksum header.length.toNat else s.checksum) =
        header.checksum) :
    Effect s store (some (.commit fromStore header)) ⟨.ok, s.restarted, store.commit header⟩
  | mismatched {fromStore : Bool} {header : Header} :
    Effect s store (some (.commit fromStore header))
      ⟨.refused .checksumMismatch, s.restarted, store.invalidate⟩
  | told : Effect s store (some .status) ⟨.summary s.offset s.checksum, s, store⟩
  | left : Effect s store (some .exit) ⟨.silent, { s with exitRequested := true }, store⟩

variable (s : Session) (store : Store μ)

/-- A span is refused, or it is not empty, not too long and lies in the store. -/
theorem spanFault?_cases (address length most : Nat) :
    (∃ why, spanFault? address length most = some why ∧ why ≠ .checksumMismatch) ∨
    (spanFault? address length most = none ∧ 0 < length ∧ length ≤ most ∧
      address + length ≤ storeSize) := by
  unfold spanFault?
  by_cases outside : storeSize ≤ address
  · rw [if_pos outside]
    exact .inl ⟨_, rfl, Refusal.noConfusion⟩
  · rw [if_neg outside]
    by_cases wrong : length = 0 ∨ most < length ∨ storeSize < address + length
    · rw [if_pos wrong]
      exact .inl ⟨_, rfl, Refusal.noConfusion⟩
    · rw [if_neg wrong]
      exact .inr ⟨rfl, by omega, by omega, by omega⟩

theorem effect_write {f : Vector UInt8 reportSize} {address length : Nat} {payload : Bytes}
    (asked : Request.ofFrame? f = some (.write address length payload)) :
    Effect s store (some (.write address length payload)) (s.write store address length payload) := by
  have long := Request.payload_write asked
  unfold write
  rcases spanFault?_cases address length Request.maxWrite with
    ⟨why, fault, other⟩ | ⟨fault, positive, short, fits⟩
  · rw [fault]
    exact .refused why other
  · rw [fault]
    refine .wrote ?_ fits
    rw [List.length_take, long]
    omega

theorem effect_read (address length : Nat) :
    Effect s store (some (.read address length)) (s.read store address length) := by
  unfold read
  rcases spanFault?_cases address length Request.maxRead with ⟨why, fault, other⟩ | ⟨fault, -⟩
  · rw [fault]
    exact .refused why other
  · rw [fault]
    exact .read

theorem effect_append {f : Vector UInt8 reportSize} {length : Nat} {payload : Bytes}
    (asked : Request.ofFrame? f = some (.append length payload)) :
    Effect s store (some (.append length payload)) (s.append store length payload) := by
  have long := Request.payload_append asked
  unfold append
  by_cases wrong : length = 0 ∨ Request.maxAppend < length ∨ maxScript < s.offset + length
  · rw [if_pos wrong]
    exact .refused _ Refusal.noConfusion
  · rw [if_neg wrong]
    refine .appended ?_ (by omega)
    rw [List.length_take, long]
    omega

theorem effect_commit (fromStore : Bool) (header : Header) :
    Effect s store (some (.commit fromStore header)) (s.commit store fromStore header) := by
  unfold commit
  by_cases wrong : header.length = 0 ∨ maxScript < header.length.toNat
  · rw [if_pos wrong]
    exact .refused _ Refusal.noConfusion
  · rw [if_neg wrong]
    obtain ⟨nonzero, fits⟩ := not_or.mp wrong
    have positive : 0 < header.length.toNat := by
      refine Nat.pos_of_ne_zero fun zero => nonzero ?_
      exact UInt16.toNat_inj.mp zero
    by_cases agrees : (if fromStore then store.scriptChecksum header.length.toNat else s.checksum) =
        header.checksum
    · rw [if_pos agrees]
      exact .committed positive (Nat.le_of_not_lt fits) agrees
    · rw [if_neg agrees]
      exact .mismatched

/-- These are all the ways in which a report can be taken in. -/
theorem effect_receive (report : Bytes) :
    Effect s store (Request.ofReport? report) (s.receive store report) := by
  unfold receive
  cases asked : Request.ofReport? report with
  | none => exact .refused _ Refusal.noConfusion
  | some request =>
    -- what fills a whole report has a payload of full length
    obtain ⟨f, framed⟩ := Request.exists_frame asked
    cases request with
    | write address length payload => exact effect_write s store framed
    | read address length => exact effect_read s store address length
    | append length payload => exact effect_append s store framed
    | reset => exact .reset
    | commit fromStore header => exact effect_commit s store fromStore header
    | status => exact .told
    | exit => exact .left

theorem receive_take (report : Bytes) :
    s.receive store (report.take reportSize) = s.receive store report := by
  simp only [receive, Request.ofReport?_take]

end Session

/-! ## What a change of single cells keeps -/

section

variable {μ : Type} [Medium μ] {P : μ → Prop}

theorem Store.writeBlock_kept (write : ∀ m a v, P m → P (Medium.write m a v)) {s : Store μ}
    (known : P s.medium) (start : Nat) (bs : Bytes) : P (s.writeBlock start bs).medium := by
  induction bs generalizing s start with
  | nil => exact known
  | cons b bs ih =>
    refine ih ?_ (start + 1)
    unfold writeByte
    split
    · exact write _ _ _ known
    · exact known

/-- Whatever a report asks for, it reaches the medium through single cells. -/
theorem Session.receive_kept (write : ∀ m a v, P m → P (Medium.write m a v)) (s : Session)
    {store : Store μ} (known : P store.medium) (report : Bytes) :
    P (s.receive store report).store.medium := by
  have effect := effect_receive s store report
  generalize s.receive store report = outcome at effect ⊢
  generalize Request.ofReport? report = asked at effect
  cases effect with
  | wrote | appended => exact Store.writeBlock_kept write known _ _
  | committed => exact Store.writeBlock_kept write known 0 _
  | mismatched => exact Store.writeBlock_kept write known Header.lengthOffset _
  | refused | read | reset | told | left => exact known

end

end Autotype
