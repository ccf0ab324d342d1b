import Autotype.Proofs.Acceptance

/-!
# How long replies are

A reply is empty, one byte, three, five, or a whole report, according to what it answers; only the reply to a
read has a length of its own, which the read asked for. No reply is longer than a report, and only a wish to
leave is answered with nothing.
-/

namespace Autotype

theorem Request.ofReport?_eq_exit_iff (report : Bytes) :
    ofReport? report = some .exit ↔ report.head? = some exitCommand := by
  cases report with
  | nil => exact ⟨(nomatch ·), (nomatch ·)⟩
  | cons command rest =>
    rw [ofReport?_eq (List.cons_ne_nil _ _), ofFrame?, frame_zero]
    constructor
    · intro asked
      split at asked <;> cases asked
      rfl
    · intro command
      cases command
      rfl

theorem Reply.encode_eq_nil_iff (reply : Reply) : reply.encode = [] ↔ reply = .silent := by
  cases reply with
  | silent => exact ⟨fun _ => rfl, fun _ => rfl⟩
  | _ => exact ⟨fun empty => absurd empty (List.cons_ne_nil _ _), Reply.noConfusion⟩

/-- Nothing but a wish to leave is answered with an empty reply. -/
theorem Session.encode_receive_eq_nil_iff {μ : Type} [Medium μ] (s : Session) (store : Store μ)
    (report : Bytes) :
    (s.receive store report).reply.encode = [] ↔ report.head? = some Request.exitCommand := by
  rw [Reply.encode_eq_nil_iff, ← Request.ofReport?_eq_exit_iff]
  constructor
  · intro silent
    have effect := effect_receive s store report
    generalize s.receive store report = outcome at effect silent
    generalize Request.ofReport? report = asked at effect ⊢
    cases effect with
    | left => rfl
    | _ => cases silent
  · intro asked
    rw [receive, asked]
    rfl

/-! ## Lengths -/

theorem Store.length_readBlock {μ : Type} [Medium μ] (s : Store μ) (a n : Nat) :
    (s.readBlock a n).length = n := by
  rw [readBlock, List.length_map, List.length_range]

namespace Session

variable {μ : Type} [Medium μ] (s : Session) (store : Store μ)

/-- Only a read is answered with contents, and these are as many as were asked for and fit a reply. -/
theorem contents_receive {report contents : Bytes}
    (told : (s.receive store report).reply = .contents contents) :
    ∃ address, Request.ofReport? report = some (.read address contents.length) ∧
      contents.length ≤ Request.maxRead := by
  have effect := effect_receive s store report
  obtain ⟨outcome, same⟩ : ∃ o, o = s.receive store report := ⟨_, rfl⟩
  rw [← same] at told effect
  generalize asked : Request.ofReport? report = request at effect
  cases effect with
  | @read address length =>
    cases told
    rw [receive_eq asked, handle] at same
    have ok : (s.read store address length).reply.IsOk := by
      rw [← same]
      exact Reply.isOk_contents _
    have short := ((isOk_read_iff s store address length).mp ok).2.2.1
    rw [Store.length_readBlock]
    exact ⟨address, rfl, short⟩
  | _ => cases told

/-- A reply is as long as its kind of answer, or just long enough for the contents that were asked for. -/
theorem length_encode_receive (report : Bytes) :
    (s.receive store report).reply.encode.length ∈ [0, 1, 3, 5, reportSize] ∨
    ∃ address length, Request.ofReport? report = some (.read address length) ∧
      length ≤ Request.maxRead ∧ (s.receive store report).reply.encode.length = 3 + length := by
  cases told : (s.receive store report).reply with
  | contents bytes =>
    obtain ⟨address, asked, short⟩ := contents_receive s store told
    exact .inr ⟨address, bytes.length, asked, short, Nat.add_comm _ 3⟩
  | silent => exact .inl (show 0 ∈ [0, 1, 3, 5, reportSize] by decide)
  | status status => exact .inl (show 1 ∈ [0, 1, 3, 5, reportSize] by decide)
  | written length => exact .inl (show 3 ∈ [0, 1, 3, 5, reportSize] by decide)
  | appended offset checksum => exact .inl (show 5 ∈ [0, 1, 3, 5, reportSize] by decide)
  | summary offset checksum => exact .inl (show reportSize ∈ [0, 1, 3, 5, reportSize] by decide)

theorem length_encode_receive_le (report : Bytes) :
    (s.receive store report).reply.encode.length ≤ reportSize := by
  rcases length_encode_receive s store report with listed | ⟨-, length, -, short, long⟩
  · have all : ∀ n ∈ [0, 1, 3, 5, reportSize], n ≤ reportSize := by decide
    exact all _ listed
  · rw [long]
    exact Nat.add_le_add_left short 3

end Session

end Autotype
